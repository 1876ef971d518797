/- module: DesecStack/Throttling/Scoped
   source: api/desecapi/throttling.py 10-90
   digest: Several rate limits of one scope, kept in a cache, are exact sliding windows. -/

import Mathlib.Algebra.Order.Field.Rat
import Mathlib.Data.List.MinMax
import Mathlib.Order.Interval.Set.Basic
import Mathlib.Tactic.Linarith
import DesecStack.Library.PyText
import DesecStack.Library.Window

set_option autoImplicit false
set_option relaxedAutoImplicit false

namespace DesecStack.Throttling.Scoped

open Library.PyText (Text ofInt ofInt_natCast_injective)
open Library.Window

/-- A number of requests for a duration in seconds, as `_parse_rate` returns it. -/
structure Rate where
  numRequests : Nat
  duration : Nat
  deriving DecidableEq, Repr

/-- A history in the cache, latest request first, and the time its timeout ends. -/
structure Entry where
  history : List ℚ
  expires : ℚ

abbrev Cache := Text → Option Entry

/-- What the class takes from elsewhere: the settings, the cache key of its base class, the
digest of a bucket, and whether the cache still returns an entry (by its timeout and now). -/
structure ScopedRatesThrottle where
  throttleRates : Text → Option (Option (List Rate))
  superCacheKey : Text → Text → Text
  hexdigest : Text → Text
  retained : ℚ → ℚ → Bool

/-- A view's throttling attributes, and the client that sends the request. -/
structure Visit where
  scope : Option Text
  bucket : Option Text
  ident : Text

/-- `self.scope`, with the bucket -/
def bucketScope (throttle : ScopedRatesThrottle) (visit : Visit) (scope : Text) : Text :=
  match visit.bucket with
  | none => scope
  | some bucket => scope ++ [':'] ++ throttle.hexdigest bucket

/-- `get_cache_key`, for one duration -/
def getCacheKey (throttle : ScopedRatesThrottle) (visit : Visit) (scope : Text)
    (duration : Nat) : Text :=
  throttle.superCacheKey (bucketScope throttle visit scope) visit.ident ++ ['_'] ++
    ofInt duration

/-- `{key: [] for key in self.key}`, updated by `cache.get_many` -/
def getMany (throttle : ScopedRatesThrottle) (cache : Cache) (now : ℚ) (key : Text) : List ℚ :=
  match cache key with
  | none => []
  | some entry => if throttle.retained entry.expires now then entry.history else []

/-- Drop any requests from the history which have now passed the duration. -/
def prune (now : ℚ) (duration : Nat) (history : List ℚ) : List ℚ :=
  history.rdropWhile (fun u => u ≤ now - duration)

/-- The loop of `allow_request`: the pruned histories, or none where a rate is exhausted. -/
def check (key : Nat → Text) (now : ℚ) : List Rate → (Text → List ℚ) → Option (Text → List ℚ)
  | [], histories => some histories
  | rate :: rates, histories =>
      let history := prune now rate.duration (histories (key rate.duration))
      if rate.numRequests ≤ history.length then none
      else check key now rates (Function.update histories (key rate.duration) history)

/-- `throttle_success`: every history gets the request, all with the longest duration as
their timeout. -/
def throttleSuccess (keys : List Text) (now : ℚ) (timeout : Nat) (histories : Text → List ℚ)
    (cache : Cache) : Cache :=
  fun key => if key ∈ keys then some ⟨now :: histories key, now + timeout⟩ else cache key

/-- `allow_request`: whether the request is admitted, and the cache afterwards; none where
the scope has no setting, or an empty list that cannot be unpacked. -/
def allowRequest (throttle : ScopedRatesThrottle) (visit : Visit) (now : ℚ) (cache : Cache) :
    Option (Bool × Cache) :=
  match visit.scope with
  | none | some [] => some (true, cache)
  | some scope =>
    match throttle.throttleRates scope with
    | none | some (some []) => none
    | some none => some (true, cache)
    | some (some (rate :: rates)) =>
      let key := getCacheKey throttle visit scope
      let timeout := ((rate :: rates).map Rate.duration).foldr max 0
      match check key now (rate :: rates) (getMany throttle cache now) with
      | none => some (false, cache)
      | some histories =>
        some (true, throttleSuccess ((rate :: rates).map (key ∘ Rate.duration)) now timeout
          histories cache)

/-- The admitted requests, latest first, and the cache. -/
structure Log where
  admitted : List ℚ
  cache : Cache

/-- One request; one that raises an error is not admitted. -/
def serve (throttle : ScopedRatesThrottle) (visit : Visit) (log : Log) (now : ℚ) : Log :=
  match allowRequest throttle visit now log.cache with
  | some (true, cache) => ⟨now :: log.admitted, cache⟩
  | some (false, cache) => ⟨log.admitted, cache⟩
  | none => log

/-- Requests one after the other, beginning with an empty cache. -/
def run (throttle : ScopedRatesThrottle) (visit : Visit) (times : List ℚ) : Log :=
  times.foldl (serve throttle visit) ⟨[], fun _ => none⟩

/-! ### One request -/

section Request

variable {throttle : ScopedRatesThrottle} {visit : Visit} {scope : Text} {rates : List Rate}

private theorem getCacheKey_injective (throttle : ScopedRatesThrottle) (visit : Visit)
    (scope : Text) :
    Function.Injective (getCacheKey throttle visit scope) := by
  intro d d' same
  exact ofInt_natCast_injective (List.append_cancel_left same)

private theorem prune_prune (now : ℚ) (d : Nat) (history : List ℚ) :
    prune now d (prune now d history) = prune now d history :=
  List.rdropWhile_idempotent _ _

variable {key : Nat → Text} (distinct : Function.Injective key)
include distinct

private theorem prune_update (now : ℚ) (histories : Text → List ℚ) (d d' : Nat) :
    prune now d' (Function.update histories (key d) (prune now d (histories (key d))) (key d')) =
      prune now d' (histories (key d')) := by
  by_cases same : d' = d
  · rw [same, Function.update_self, prune_prune]
  · rw [Function.update_of_ne (fun equal => same (distinct equal))]

private theorem check_eq_none_iff {now : ℚ} {histories : Text → List ℚ} :
    check key now rates histories = none ↔
      ∃ rate ∈ rates,
        rate.numRequests ≤ (prune now rate.duration (histories (key rate.duration))).length := by
  induction rates generalizing histories with
  | nil => simp [check]
  | cons rate rates ih =>
    rw [List.exists_mem_cons_iff, check]
    by_cases exhausted : rate.numRequests ≤
        (prune now rate.duration (histories (key rate.duration))).length
    · simp only [exhausted, if_true, true_or]
    · simp only [exhausted, if_false, false_or, ih, prune_update distinct]

private theorem eq_of_check {now : ℚ} {histories after : Text → List ℚ}
    (passed : check key now rates histories = some after) (d : Nat) :
    after (key d) = if d ∈ rates.map Rate.duration then prune now d (histories (key d))
      else histories (key d) := by
  induction rates generalizing histories with
  | nil =>
    cases passed
    rfl
  | cons rate rates ih =>
    rw [check] at passed
    split at passed
    · cases passed
    · rw [ih passed, prune_update distinct]
      by_cases same : d = rate.duration
      · subst same
        simp
      · rw [Function.update_of_ne (fun equal => same (distinct equal))]
        simp [same]

end Request

/-! ### All requests -/

section Run

variable {throttle : ScopedRatesThrottle} {visit : Visit} {scope : Text} {rates : List Rate}

/-- The visit has a throttling scope, and the settings have a list of rates for it. -/
structure Configured (throttle : ScopedRatesThrottle) (visit : Visit) (scope : Text)
    (rates : List Rate) : Prop where
  chosen : visit.scope = some scope
  named : scope ≠ []
  listed : throttle.throttleRates scope = some (some rates)
  nonempty : rates ≠ []

/-- The cache returns an entry until its timeout; afterwards it may do so or not. -/
def KeepsEntries (throttle : ScopedRatesThrottle) : Prop :=
  ∀ expires now, now < expires → throttle.retained expires now = true

/-- The rates admit a request: each has been used less than it allows, for its duration. -/
def Admits (rates : List Rate) (admitted : List ℚ) (now : ℚ) : Prop :=
  ∀ rate ∈ rates, (recent (rate.duration : ℚ) now admitted).length < rate.numRequests

instance (rates : List Rate) (admitted : List ℚ) (now : ℚ) :
    Decidable (Admits rates admitted now) :=
  inferInstanceAs (Decidable (∀ rate ∈ rates, _))

/-- What the cache holds under the scope's keys, for all times from `since` on: pruned, it is
the part of the admitted requests in the window. -/
structure Tracks (throttle : ScopedRatesThrottle) (key : Nat → Text) (durations : List Nat)
    (log : Log) (since : ℚ) : Prop where
  latest : log.admitted.Pairwise (· ≥ ·)
  past : ∀ u ∈ log.admitted, u ≤ since
  windows : ∀ d ∈ durations, ∀ now, since ≤ now →
    prune now d (getMany throttle log.cache now (key d)) = recent (d : ℚ) now log.admitted

private theorem Tracks.later {key : Nat → Text} {durations : List Nat} {log : Log} {since now : ℚ}
    (tracks : Tracks throttle key durations log since) (later : since ≤ now) :
    Tracks throttle key durations log now where
  latest := tracks.latest
  past u inside := (tracks.past u inside).trans later
  windows d listed now' after := tracks.windows d listed now' (later.trans after)

private theorem allowRequest_eq (configured : Configured throttle visit scope rates) (now : ℚ)
    (cache : Cache) :
    allowRequest throttle visit now cache =
      match check (getCacheKey throttle visit scope) now rates (getMany throttle cache now) with
      | none => some (false, cache)
      | some histories =>
        some (true, throttleSuccess
          (rates.map (getCacheKey throttle visit scope ∘ Rate.duration)) now
          ((rates.map Rate.duration).foldr max 0) histories cache) := by
  obtain ⟨first, rest, rfl⟩ := List.exists_cons_of_ne_nil configured.nonempty
  obtain ⟨c, cs, rfl⟩ := List.exists_cons_of_ne_nil configured.named
  rw [allowRequest, configured.chosen]
  simp only [configured.listed]

private theorem windows_of_success {key : Nat → Text} (distinct : Function.Injective key)
    (keeps : KeepsEntries throttle) {log : Log} {now : ℚ} {histories : Text → List ℚ}
    (tracks : Tracks throttle key (rates.map Rate.duration) log now)
    (passed : check key now rates (getMany throttle log.cache now) = some histories) :
    Tracks throttle key (rates.map Rate.duration)
      ⟨now :: log.admitted, throttleSuccess (rates.map (key ∘ Rate.duration)) now
        ((rates.map Rate.duration).foldr max 0) histories log.cache⟩ now where
  latest := List.pairwise_cons.mpr ⟨tracks.past, tracks.latest⟩
  past u inside := by
    rcases List.mem_cons.mp inside with rfl | earlier
    · exact le_rfl
    · exact tracks.past u earlier
  windows d listed now' later := by
    have written : key d ∈ rates.map (key ∘ Rate.duration) := by
      rw [← List.map_map]
      exact List.mem_map_of_mem listed
    have history : histories (key d) = recent (d : ℚ) now log.admitted := by
      rw [eq_of_check distinct passed, if_pos listed, tracks.windows d listed now le_rfl]
    simp only [getMany, throttleSuccess, if_pos written]
    by_cases returned :
        throttle.retained (now + ((rates.map Rate.duration).foldr max 0 : Nat)) now' = true
    · have ordered : (now :: recent (d : ℚ) now log.admitted).Pairwise (· ≥ ·) :=
        (List.pairwise_cons.mpr ⟨tracks.past, tracks.latest⟩).sublist
          (List.Sublist.cons_cons now List.filter_sublist)
      simp only [returned, if_true, history]
      rw [prune, rdropWhile_eq_recent ordered, recent_cons _ _ _ (recent _ _ _),
        recent_cons _ _ _ log.admitted, recent_recent (sub_le_sub_right later _)]
    · have ended : now + ((rates.map Rate.duration).foldr max 0 : Nat) ≤ now' :=
        not_lt.mp (fun early => returned (keeps _ _ early))
      have longest : d ≤ (rates.map Rate.duration).foldr max 0 :=
        List.le_max_of_le listed le_rfl
      have outside : now ≤ now' - d := by
        have seconds : (d : ℚ) ≤ ((rates.map Rate.duration).foldr max 0 : Nat) := by
          exact_mod_cast longest
        linarith
      simp only [returned]
      rw [recent_eq_nil]
      · rfl
      · intro u inside
        rcases List.mem_cons.mp inside with rfl | earlier
        · exact outside
        · exact (tracks.past u earlier).trans outside

private theorem check_isSome_iff {key : Nat → Text} (distinct : Function.Injective key) {log : Log}
    {now : ℚ} (tracks : Tracks throttle key (rates.map Rate.duration) log now) :
    (check key now rates (getMany throttle log.cache now)).isSome = true ↔
      Admits rates log.admitted now := by
  rw [← not_iff_not, Option.not_isSome_iff_eq_none, check_eq_none_iff distinct, Admits]
  simp only [not_forall, not_lt, exists_prop]
  apply exists_congr
  intro rate
  apply and_congr_right
  intro listed
  rw [tracks.windows _ (List.mem_map_of_mem listed) now le_rfl]

/-- One request: it is admitted exactly if the rates admit it, and else changes nothing. -/
theorem serve_spec (configured : Configured throttle visit scope rates)
    (keeps : KeepsEntries throttle) {log : Log} {now : ℚ}
    (tracks : Tracks throttle (getCacheKey throttle visit scope) (rates.map Rate.duration) log
      now) :
    (allowRequest throttle visit now log.cache).map Prod.fst =
        some (decide (Admits rates log.admitted now)) ∧
      (if Admits rates log.admitted now then
        (serve throttle visit log now).admitted = now :: log.admitted
      else serve throttle visit log now = log) ∧
      Tracks throttle (getCacheKey throttle visit scope) (rates.map Rate.duration)
        (serve throttle visit log now) now := by
  have distinct := getCacheKey_injective throttle visit scope
  have admits := check_isSome_iff distinct tracks
  rw [serve, allowRequest_eq configured]
  cases passed : check (getCacheKey throttle visit scope) now rates
      (getMany throttle log.cache now) with
  | none =>
    have refused : ¬ Admits rates log.admitted now := by
      rw [← admits, passed]
      exact Bool.false_ne_true
    simp only [Option.map_some, refused, decide_false, if_false]
    exact ⟨trivial, trivial, tracks⟩
  | some histories =>
    have admitted : Admits rates log.admitted now := by
      rw [← admits, passed]
      rfl
    simp only [Option.map_some, admitted, decide_true, if_true]
    exact ⟨trivial, trivial, windows_of_success distinct keeps tracks passed⟩

private theorem run_append (throttle : ScopedRatesThrottle) (visit : Visit) (past : List ℚ)
    (now : ℚ) :
    run throttle visit (past ++ [now]) = serve throttle visit (run throttle visit past) now := by
  rw [run, run, List.foldl_append, List.foldl_cons, List.foldl_nil]

private theorem tracks_of_start (key : Nat → Text) (durations : List Nat) (since : ℚ) :
    Tracks throttle key durations ⟨[], fun _ => none⟩ since where
  latest := List.Pairwise.nil
  past := fun _ inside => absurd inside List.not_mem_nil
  windows := fun _ _ _ _ => rfl

/-- At each time of a run the cache tracks the admitted requests. -/
theorem tracks_of_run (configured : Configured throttle visit scope rates)
    (keeps : KeepsEntries throttle) {past : List ℚ} {now : ℚ}
    (ordered : (past ++ [now]).Pairwise (· ≤ ·)) :
    Tracks throttle (getCacheKey throttle visit scope) (rates.map Rate.duration)
      (run throttle visit past) now := by
  induction past using List.reverseRecOn generalizing now with
  | nil => exact tracks_of_start _ _ now
  | append_singleton past last ih =>
    obtain ⟨before, -, after⟩ := List.pairwise_append.mp ordered
    have tracks := (serve_spec configured keeps (ih before)).2.2
    rw [run_append]
    exact tracks.later (after last (List.mem_append_right _ (List.mem_singleton_self last)) now
      (List.mem_singleton_self now))

/-- Every admitted request found each rate below its limit. -/
theorem limited_of_run (configured : Configured throttle visit scope rates)
    (keeps : KeepsEntries throttle) {times : List ℚ} (ordered : times.Pairwise (· ≤ ·))
    {rate : Rate} (listed : rate ∈ rates) :
    Limited rate.numRequests (rate.duration : ℚ) (run throttle visit times).admitted := by
  induction times using List.reverseRecOn with
  | nil => exact trivial
  | append_singleton past now ih =>
    have past_limited := ih (List.pairwise_append.mp ordered).1
    have effect := (serve_spec configured keeps (tracks_of_run configured keeps ordered)).2.1
    rw [run_append]
    split at effect
    · rename_i admitted
      rw [effect]
      exact ⟨admitted rate listed, past_limited⟩
    · rw [effect]
      exact past_limited

/-- The requests that were rejected leave no trace. -/
theorem run_admitted (configured : Configured throttle visit scope rates)
    (keeps : KeepsEntries throttle) {times : List ℚ} (ordered : times.Pairwise (· ≤ ·)) :
    run throttle visit (run throttle visit times).admitted.reverse = run throttle visit times := by
  induction times using List.reverseRecOn with
  | nil => rfl
  | append_singleton past now ih =>
    have past_same := ih (List.pairwise_append.mp ordered).1
    have effect := (serve_spec configured keeps (tracks_of_run configured keeps ordered)).2.1
    rw [run_append]
    split at effect
    · rw [effect, List.reverse_cons, run_append, past_same]
    · rw [effect, past_same]

/-- How many of the admitted requests lie in an interval. -/
def countIn (log : Log) (interval : Set ℚ) [DecidablePred (· ∈ interval)] : Nat :=
  (log.admitted.filter (· ∈ interval)).length

/-- Rate limits are exact sliding windows. Any request, after any others at earlier or equal
times, is admitted if and only if for each rate fewer requests than it allows were admitted in
the window of its duration that ends now; no window of that length ever holds more of them; and
the requests that were rejected could as well not have been made. -/
theorem sliding_windows (configured : Configured throttle visit scope rates)
    (keeps : KeepsEntries throttle) {past : List ℚ} {now : ℚ}
    (ordered : (past ++ [now]).Pairwise (· ≤ ·)) :
    (allowRequest throttle visit now (run throttle visit past).cache).map Prod.fst =
        some (decide (∀ rate ∈ rates,
          countIn (run throttle visit past) (Set.Ioc (now - rate.duration) now) <
            rate.numRequests)) ∧
      (∀ rate ∈ rates, ∀ start : ℚ,
        countIn (run throttle visit (past ++ [now])) (Set.Ioc start (start + rate.duration)) ≤
            rate.numRequests ∧
          countIn (run throttle visit (past ++ [now])) (Set.Ico start (start + rate.duration)) ≤
            rate.numRequests) ∧
      run throttle visit (run throttle visit past).admitted.reverse = run throttle visit past := by
  have tracks := tracks_of_run configured keeps ordered
  refine ⟨?_, ?_, run_admitted configured keeps (List.pairwise_append.mp ordered).1⟩
  · rw [(serve_spec configured keeps tracks).1, Option.some.injEq, decide_eq_decide, Admits]
    apply forall₂_congr
    intro rate _
    have window : countIn (run throttle visit past) (Set.Ioc (now - rate.duration) now) =
        (recent (rate.duration : ℚ) now (run throttle visit past).admitted).length := by
      apply congrArg List.length
      apply List.filter_congr
      intro u inside
      have before : u ≤ now := tracks.past u inside
      simp [before]
    rw [window]
  · intro rate listed start
    have limited := limited_of_run configured keeps ordered listed
    constructor
    · apply length_le_of_limited _ limited
      intro u v inside inside'
      simp only [Set.mem_Ioc, decide_eq_true_eq] at inside inside'
      linarith
    · apply length_le_of_limited _ limited
      intro u v inside inside'
      simp only [Set.mem_Ico, decide_eq_true_eq] at inside inside'
      linarith

/-- Two requests a second, three a minute. -/
def sampleThrottle : ScopedRatesThrottle where
  throttleRates := fun _ => some (some [⟨2, 1⟩, ⟨3, 60⟩])
  superCacheKey := fun scope ident => "throttle_".toList ++ scope ++ ['_'] ++ ident
  hexdigest := id
  retained := fun expires now => decide (now < expires)

def sampleVisit : Visit := ⟨some "dyndns".toList, none, "7".toList⟩

private theorem configured_sample :
    Configured sampleThrottle sampleVisit "dyndns".toList [⟨2, 1⟩, ⟨3, 60⟩] where
  chosen := rfl
  named := by decide
  listed := rfl
  nonempty := List.cons_ne_nil _ _

/-- A second later there is room in the shorter window, and after one more request none in the
longer one; the request that was rejected at the start does not count. -/
theorem sliding_windows_sample :
    (run sampleThrottle sampleVisit [0, 0, 0, 1]).admitted = [1, 0, 0] ∧
      (allowRequest sampleThrottle sampleVisit 1
        (run sampleThrottle sampleVisit [0, 0, 0, 1]).cache).map Prod.fst = some false := by
  constructor
  · decide +kernel
  · rw [(sliding_windows configured_sample (fun _ _ early => decide_eq_true early)
      (by decide +kernel)).1]
    decide +kernel

end Run

end DesecStack.Throttling.Scoped
