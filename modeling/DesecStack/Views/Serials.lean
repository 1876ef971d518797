/- module: DesecStack/Views/Serials
   source: api/desecapi/views/domains.py 139-159, api/desecapi/pdns.py 306-310
   digest: The list of serials that secondaries ask for, served by any number of workers. -/

import Mathlib.Data.List.Basic
import Mathlib.Data.List.Induction
import Mathlib.Logic.Function.Basic

set_option autoImplicit false
set_option relaxedAutoImplicit false

namespace DesecStack.Views.Serials

section Model

variable {Serials : Type}

/-- How far a request has come: whether it updates the list, and since when. -/
inductive Phase (Serials : Type) where
  | waiting
  | updating (since : Nat)
  | fetched (since : Nat) (serials : Serials)
  | reading
  | done

/-- What has happened, by which request and when. A request that stores a list answers with it. -/
inductive Entry (Serials : Type) where
  | started (request now : Nat)
  | fetched (request now : Nat) (serials : Serials)
  | stored (request now : Nat) (serials : Serials)
  | served (request now : Nat) (serials : Serials)
  | notReady (request now : Nat)
  | sentinelLost (now : Nat)
  | listLost (now : Nat)

def Entry.now : Entry Serials → Nat
  | .started _ now | .fetched _ now _ | .stored _ now _ | .served _ now _ | .notReady _ now
  | .sentinelLost now | .listLost now => now

/-- The cache, with the times that its entries expire, the requests, and the log, latest first. -/
structure State (Serials : Type) where
  clock : Nat
  sentinel : Option Nat
  list : Option (Serials × Nat)
  requests : Nat → Phase Serials
  log : List (Entry Serials)

def State.start : State Serials := ⟨0, none, none, fun _ => .waiting, []⟩

/-- A request makes its next step, where `get_serials` may return or raise, or the cache drops an
entry early. -/
inductive Action (Serials : Type) where
  | request (request : Nat) (getSerials : Option Serials)
  | loseSentinel
  | loseList

structure Event (Serials : Type) where
  elapsed : Nat
  action : Action Serials

def sentinelTimeout : Nat := 60

def listTimeout : Nat := 300

/-- An entry that expires then is still there. -/
def alive (now : Nat) (expires : Option Nat) : Bool := expires.any fun time => now < time

/-- The response with what `cache.get` returns. -/
def answer (now request : Nat) (list : Option (Serials × Nat)) : Entry Serials :=
  match list with
  | some (serials, expires) =>
    if now < expires then .served request now serials else .notReady request now
  | none => .notReady request now

/-- A step of `SerialListView.get` at some time. -/
def advance (now request : Nat) (getSerials : Option Serials) (s : State Serials) :
    State Serials :=
  match s.requests request with
  | .waiting =>
    -- `cache.add` of the sentinel
    if alive now s.sentinel then
      { s with requests := Function.update s.requests request .reading }
    else
      { s with
        sentinel := some (now + sentinelTimeout)
        requests := Function.update s.requests request (.updating now)
        log := .started request now :: s.log }
  | .updating since =>
    match getSerials with
    | none => { s with requests := Function.update s.requests request .done }
    | some serials =>
      { s with
        requests := Function.update s.requests request (.fetched since serials)
        log := .fetched request now serials :: s.log }
  | .fetched _ serials =>
    { s with
      list := some (serials, now + listTimeout)
      requests := Function.update s.requests request .done
      log := .stored request now serials :: s.log }
  | .reading =>
    { s with
      requests := Function.update s.requests request .done
      log := answer now request s.list :: s.log }
  | .done => s

def step (s : State Serials) (event : Event Serials) : State Serials :=
  let now := s.clock + event.elapsed
  let s := { s with clock := now }
  match event.action with
  | .request request getSerials => advance now request getSerials s
  | .loseSentinel => { s with sentinel := none, log := .sentinelLost now :: s.log }
  | .loseList => { s with list := none, log := .listLost now :: s.log }

def run (events : List (Event Serials)) : State Serials := events.foldl step State.start

end Model

section Properties

variable {Serials : Type} (log : List (Entry Serials))

/-- Two updates start at least the timeout of the sentinel apart, unless it is lost. -/
def Spaced : Prop :=
  ∀ later between earlier request time first start,
    log = later ++ .started request time :: (between ++ .started first start :: earlier) →
      (∀ now, .sentinelLost now ∉ between) → start + sentinelTimeout ≤ time

/-- A request has fetched a list after it had started to update. -/
def Got (request start : Nat) (serials : Serials) : Prop :=
  ∃ between before time, log = between ++ .fetched request time serials :: before ∧
    .started request start ∈ before

/-- What is served from the cache is what was stored last, less than its timeout ago, by a request
that had fetched it after its start. -/
def Fresh : Prop :=
  ∀ later earlier request time serials, log = later ++ .served request time serials :: earlier →
    ∃ between before updater now start, earlier = between ++ .stored updater now serials :: before ∧
      (∀ other at' list, .stored other at' list ∉ between) ∧ time < now + listTimeout ∧
      Got before updater start serials

/-- A list is missing only if nothing was stored lately, or it was lost. -/
def Ready : Prop :=
  ∀ later between before request time updater now serials,
    log = later ++ .notReady request time :: (between ++ .stored updater now serials :: before) →
      (∀ lost, .listLost lost ∉ between) → now + listTimeout ≤ time

/-- Lists are stored before the sentinel of their update expires. -/
def Prompt : Prop :=
  ∀ request now serials start, .stored request now serials ∈ log → .started request start ∈ log →
    now < start + sentinelTimeout

/-- Lists are stored in the order in which their updates have started. -/
def Ordered : Prop :=
  ∀ later between before request time serials first now list start start',
    log = later ++ .stored request time serials :: (between ++ .stored first now list :: before) →
      .started request start ∈ log → .started first start' ∈ log → start' < start

end Properties

section Invariant

variable {Serials : Type}

/-- The last list that was stored, after which the cache has lost none. -/
def Last (log : List (Entry Serials)) (serials : Serials) (now : Nat) : Prop :=
  ∃ between before updater start, log = between ++ .stored updater now serials :: before ∧
    (∀ other at' list, .stored other at' list ∉ between) ∧ Got before updater start serials

/-- What the log says about a request in some phase. -/
def Phased (log : List (Entry Serials)) (request : Nat) : Phase Serials → Prop
  | .waiting => (∀ start, .started request start ∉ log) ∧ ∀ now list, .stored request now list ∉ log
  | .updating since => .started request since ∈ log ∧ ∀ now list, .stored request now list ∉ log
  | .fetched since serials => Got log request since serials ∧
      ∀ now list, .stored request now list ∉ log
  | .reading | .done => True

/-- Updates that have started since the sentinel was last lost keep it alive for its timeout. -/
def Guarded (log : List (Entry Serials)) (sentinel : Option Nat) : Prop :=
  ∀ between earlier request start, log = between ++ .started request start :: earlier →
    (∀ now, .sentinelLost now ∉ between) →
      ∃ expires, sentinel = some expires ∧ start + sentinelTimeout ≤ expires

/-- The cached list is what was stored last, and there is one after a list was stored, until the
cache loses it. -/
structure Cached (log : List (Entry Serials)) (list : Option (Serials × Nat)) : Prop where
  last : ∀ serials expires, list = some (serials, expires) →
    ∃ now, expires = now + listTimeout ∧ Last log serials now
  kept : ∀ between before updater now serials,
    log = between ++ .stored updater now serials :: before → (∀ lost, .listLost lost ∉ between) →
      ∃ latest expires, list = some (latest, expires) ∧ now + listTimeout ≤ expires

/-- What the state has to do with the log. -/
structure Sound (s : State Serials) : Prop where
  times : s.log.Pairwise fun later earlier => earlier.now ≤ later.now
  past : ∀ entry ∈ s.log, entry.now ≤ s.clock
  once : ∀ request start start', .started request start ∈ s.log →
    .started request start' ∈ s.log → start = start'
  single : s.log.Pairwise fun later earlier => ∀ request time time' serials serials',
    later = .stored request time serials → earlier ≠ .stored request time' serials'
  began : ∀ request time serials start, .stored request time serials ∈ s.log →
    .started request start ∈ s.log → start ≤ time
  phased : ∀ request, Phased s.log request (s.requests request)
  guarded : Guarded s.log s.sentinel
  cached : Cached s.log s.list
  spaced : Spaced s.log
  fresh : Fresh s.log
  ready : Ready s.log

private theorem cached_start : Cached ([] : List (Entry Serials)) none := by
  constructor <;> simp

private theorem sound_start : Sound (State.start : State Serials) := by
  constructor <;> simp [State.start, Spaced, Fresh, Ready, Phased, Guarded, cached_start]

def Entry.request : Entry Serials → Option Nat
  | .started request _ | .fetched request _ _ | .stored request _ _ | .served request _ _
  | .notReady request _ => some request
  | .sentinelLost _ | .listLost _ => none

variable {log : List (Entry Serials)} {entry : Entry Serials} {s : State Serials}

private theorem Got.cons {request start : Nat} {serials : Serials}
    (got : Got log request start serials)
    (entry : Entry Serials) : Got (entry :: log) request start serials := by
  obtain ⟨between, before, time, rfl, started⟩ := got
  exact ⟨entry :: between, before, time, rfl, started⟩

private theorem Phased.cons {request : Nat} {phase : Phase Serials}
    (phased : Phased log request phase)
    (other : entry.request ≠ some request) : Phased (entry :: log) request phase := by
  have started {start : Nat} (absent : .started request start ∉ log) :
      .started request start ∉ entry :: log := by
    rw [List.mem_cons, not_or]
    exact ⟨fun same => other (same ▸ rfl), absent⟩
  have stored {now : Nat} {list : Serials} (absent : .stored request now list ∉ log) :
      .stored request now list ∉ entry :: log := by
    rw [List.mem_cons, not_or]
    exact ⟨fun same => other (same ▸ rfl), absent⟩
  cases phase with
  | waiting =>
    exact ⟨fun start => started (phased.1 start), fun now list => stored (phased.2 now list)⟩
  | updating since =>
    exact ⟨List.mem_cons_of_mem _ phased.1, fun now list => stored (phased.2 now list)⟩
  | fetched since serials =>
    obtain ⟨got, absent⟩ := phased
    exact ⟨got.cons entry, fun now list => stored (absent now list)⟩
  | reading => trivial
  | done => trivial

private theorem spaced_cons (spaced : Spaced log)
    (apart : ∀ request time, entry = .started request time → ∀ between earlier first start,
      log = between ++ .started first start :: earlier → (∀ now, .sentinelLost now ∉ between) →
        start + sentinelTimeout ≤ time) : Spaced (entry :: log) := by
  intro later between earlier request time first start split kept
  rcases List.cons_eq_append_iff.mp split with ⟨rfl, same⟩ | ⟨others, rfl, rest⟩
  · obtain ⟨now, rest⟩ := List.cons.inj same
    exact apart request time now.symm between earlier first start rest.symm kept
  · exact spaced others between earlier request time first start rest kept

private theorem fresh_cons (fresh : Fresh log)
    (now : ∀ request time serials, entry = .served request time serials →
      ∃ stored, Last log serials stored ∧ time < stored + listTimeout) : Fresh (entry :: log) := by
  intro later earlier request time serials split
  rcases List.cons_eq_append_iff.mp split with ⟨rfl, same⟩ | ⟨others, rfl, rest⟩
  · obtain ⟨isEntry, rfl⟩ := List.cons.inj same
    obtain ⟨stored, ⟨between, before, updater, start, split, last, rest⟩, alive⟩ :=
      now request time serials isEntry.symm
    exact ⟨between, before, updater, stored, start, split, last, alive, rest⟩
  · exact fresh others earlier request time serials rest

private theorem ready_cons (ready : Ready log)
    (now : ∀ request time, entry = .notReady request time → ∀ between before updater stored serials,
      log = between ++ .stored updater stored serials :: before →
        (∀ lost, .listLost lost ∉ between) → stored + listTimeout ≤ time) :
    Ready (entry :: log) := by
  intro later between before request time updater stored serials split kept
  rcases List.cons_eq_append_iff.mp split with ⟨rfl, same⟩ | ⟨others, rfl, rest⟩
  · obtain ⟨isEntry, rest⟩ := List.cons.inj same
    exact now request time isEntry.symm between before updater stored serials rest.symm kept
  · exact ready others between before request time updater stored serials rest kept

private theorem Last.cons {serials : Serials} {now : Nat} (last : Last log serials now)
    (other : ∀ request time list, entry ≠ .stored request time list) :
    Last (entry :: log) serials now := by
  obtain ⟨between, before, updater, start, rfl, kept, rest⟩ := last
  refine ⟨entry :: between, before, updater, start, rfl, fun request time list => ?_, rest⟩
  rw [List.mem_cons, not_or]
  exact ⟨fun same => other request time list same.symm, kept request time list⟩

private theorem guarded_cons {sentinel : Option Nat} (guarded : Guarded log sentinel)
    (started : ∀ request start, entry ≠ .started request start) :
    Guarded (entry :: log) sentinel := by
  intro between earlier request start split kept
  rcases List.cons_eq_append_iff.mp split with ⟨rfl, same⟩ | ⟨others, rfl, rest⟩
  · exact absurd (List.cons.inj same).1.symm (started request start)
  · exact guarded others earlier request start rest fun now lost =>
      kept now (List.mem_cons_of_mem _ lost)

private theorem cached_cons {list : Option (Serials × Nat)} (cached : Cached log list)
    (other : ∀ request time serials, entry ≠ .stored request time serials) :
    Cached (entry :: log) list where
  last := by
    intro serials expires isList
    obtain ⟨now, expiry, last⟩ := cached.last serials expires isList
    exact ⟨now, expiry, last.cons other⟩
  kept := by
    intro between before updater now serials split kept
    rcases List.cons_eq_append_iff.mp split with ⟨rfl, same⟩ | ⟨others, rfl, rest⟩
    · exact absurd (List.cons.inj same).1.symm (other updater now serials)
    · exact cached.kept others before updater now serials rest fun lost inside =>
        kept lost (List.mem_cons_of_mem _ inside)

private theorem Sound.note (sound : Sound s) (entry : Entry Serials) {t : State Serials}
    (log : t.log = entry :: s.log) (clock : t.clock = s.clock) (now : entry.now = s.clock)
    (new : ∀ request start, entry = .started request start → Phased s.log request .waiting)
    (unstored : ∀ request time serials, entry = .stored request time serials →
      ∀ time' serials', .stored request time' serials' ∉ s.log)
    (phased : ∀ request, Phased (entry :: s.log) request (t.requests request))
    (guarded : Guarded (entry :: s.log) t.sentinel) (cached : Cached (entry :: s.log) t.list)
    (spaced : Spaced (entry :: s.log)) (fresh : Fresh (entry :: s.log))
    (ready : Ready (entry :: s.log)) : Sound t where
  times := by
    rw [log, List.pairwise_cons]
    exact ⟨fun earlier member => now ▸ sound.past earlier member, sound.times⟩
  past := by
    rw [log, clock]
    intro other member
    rcases List.mem_cons.mp member with rfl | old
    · exact Nat.le_of_eq now
    · exact sound.past other old
  once := by
    rw [log]
    intro request start start' one other
    rcases List.mem_cons.mp one with same | old <;> rcases List.mem_cons.mp other with same' | old'
    · exact (Entry.started.inj (same.trans same'.symm)).2
    · exact absurd old' ((new request start same.symm).1 start')
    · exact absurd old ((new request start' same'.symm).1 start)
    · exact sound.once request start start' old old'
  single := by
    rw [log, List.pairwise_cons]
    refine ⟨fun earlier member request time time' serials serials' isEntry same => ?_, sound.single⟩
    exact unstored request time serials isEntry time' serials' (same ▸ member)
  began := by
    rw [log]
    intro request time serials start stored started
    rcases List.mem_cons.mp stored with same | old <;>
      rcases List.mem_cons.mp started with same' | old'
    · cases same.trans same'.symm
    · subst same
      exact Nat.le_trans (sound.past _ old') (Nat.le_of_eq now.symm)
    · exact absurd old ((new request start same'.symm).2 time serials)
    · exact sound.began request time serials start old old'
  phased := log ▸ phased
  guarded := log ▸ guarded
  cached := log ▸ cached
  spaced := log ▸ spaced
  fresh := log ▸ fresh
  ready := log ▸ ready

private theorem Sound.later (sound : Sound s) (elapsed : Nat) :
    Sound { s with clock := s.clock + elapsed } :=
  { sound with
    past := fun entry member => Nat.le_trans (sound.past entry member) (Nat.le_add_right _ _) }

private theorem Sound.phase (sound : Sound s) {request : Nat} {phase : Phase Serials}
    (phased : Phased s.log request phase) :
    Sound { s with requests := Function.update s.requests request phase } where
  __ := sound
  phased := by
    intro other
    by_cases same : other = request
    · subst same
      simpa using phased
    · simpa [same] using sound.phased other

private theorem phased_update (sound : Sound s) {request : Nat} {phase : Phase Serials}
    (own : entry.request = some request) (phased : Phased (entry :: s.log) request phase)
    (other : Nat) :
    Phased (entry :: s.log) other (Function.update s.requests request phase other) := by
  by_cases same : other = request
  · subst same
    simpa using phased
  · rw [Function.update_of_ne same]
    exact (sound.phased other).cons fun again => same (Option.some.inj (again.symm.trans own))

private theorem answer_cases (now request : Nat) (list : Option (Serials × Nat)) :
    (∃ serials expires, list = some (serials, expires) ∧ now < expires ∧
      answer now request list = .served request now serials) ∨
    (∀ serials expires, list = some (serials, expires) → expires ≤ now) ∧
      answer now request list = .notReady request now := by
  cases list with
  | none => exact Or.inr ⟨nofun, rfl⟩
  | some pair =>
    by_cases alive : now < pair.2
    · exact Or.inl ⟨pair.1, pair.2, rfl, alive, if_pos alive⟩
    · refine Or.inr ⟨?_, if_neg alive⟩
      rintro serials expires ⟨⟩
      exact Nat.le_of_not_lt alive

private theorem sound_advance (sound : Sound s) (request : Nat) (getSerials : Option Serials) :
    Sound (advance s.clock request getSerials s) := by
  have phased := sound.phased request
  rw [advance]
  split
  · next waiting =>
    rw [waiting] at phased
    split
    · exact sound.phase trivial
    · next dead =>
      refine sound.note (.started request s.clock) rfl rfl rfl ?_ nofun ?_ ?_ ?_ ?_ ?_ ?_
      · rintro other start ⟨⟩
        exact phased
      · refine phased_update sound rfl ⟨List.mem_cons_self, fun now list => ?_⟩
        simpa using phased.2 now list
      · intro between earlier other start split kept
        rcases List.cons_eq_append_iff.mp split with ⟨rfl, same⟩ | ⟨others, rfl, rest⟩
        · obtain ⟨⟨⟩, -⟩ := same
          exact ⟨_, rfl, Nat.le_refl _⟩
        · refine ⟨_, rfl, ?_⟩
          have before := sound.past (.started other start) (rest ▸ List.mem_append_right _
            List.mem_cons_self)
          exact Nat.add_le_add_right before _
      · exact cached_cons sound.cached nofun
      · refine spaced_cons sound.spaced ?_
        rintro other time ⟨⟩ between earlier first start split kept
        obtain ⟨expires, isSentinel, later⟩ := sound.guarded between earlier first start split kept
        rw [alive, isSentinel] at dead
        simp only [Option.any_some, decide_eq_true_eq] at dead
        omega
      · exact fresh_cons sound.fresh nofun
      · exact ready_cons sound.ready nofun
  · next since updating =>
    rw [updating] at phased
    split
    · exact sound.phase trivial
    · next serials =>
      refine sound.note (.fetched request s.clock serials) rfl rfl rfl nofun nofun ?_ ?_ ?_ ?_
        ?_ ?_
      · refine phased_update sound rfl ⟨⟨[], s.log, s.clock, rfl, phased.1⟩, fun now list => ?_⟩
        simpa using phased.2 now list
      · exact guarded_cons sound.guarded nofun
      · exact cached_cons sound.cached nofun
      · exact spaced_cons sound.spaced nofun
      · exact fresh_cons sound.fresh nofun
      · exact ready_cons sound.ready nofun
  · next since serials fetched =>
    rw [fetched] at phased
    refine sound.note (.stored request s.clock serials) rfl rfl rfl nofun ?_ ?_ ?_ ?_ ?_ ?_
      ?_
    · rintro other time list ⟨⟩
      exact phased.2
    · exact phased_update sound rfl trivial
    · exact guarded_cons sound.guarded nofun
    · constructor
      · rintro list expires ⟨⟩
        exact ⟨s.clock, rfl, [], s.log, request, since, rfl, nofun, phased.1⟩
      · intro between before updater now list split kept
        refine ⟨serials, _, rfl, ?_⟩
        rcases List.cons_eq_append_iff.mp split with ⟨rfl, same⟩ | ⟨others, rfl, rest⟩
        · obtain ⟨⟨⟩, -⟩ := same
          exact Nat.le_refl _
        · have before := sound.past (.stored updater now list) (rest ▸ List.mem_append_right _
            List.mem_cons_self)
          exact Nat.add_le_add_right before _
    · exact spaced_cons sound.spaced nofun
    · exact fresh_cons sound.fresh nofun
    · exact ready_cons sound.ready nofun
  · next reading =>
    have responds := answer_cases s.clock request s.list
    generalize answer s.clock request s.list = response at responds ⊢
    have own : response.request = some request ∧ response.now = s.clock := by
      rcases responds with ⟨serials, expires, -, -, rfl⟩ | ⟨-, rfl⟩ <;> exact ⟨rfl, rfl⟩
    have other : (∀ request start, response ≠ .started request start) ∧
        ∀ request time serials, response ≠ .stored request time serials := by
      rcases responds with ⟨serials, expires, -, -, rfl⟩ | ⟨-, rfl⟩ <;> exact ⟨nofun, nofun⟩
    refine sound.note response rfl rfl own.2 ?_ ?_ ?_ ?_ ?_ ?_ ?_ ?_
    · exact fun request start same => absurd same (other.1 request start)
    · exact fun request time serials same => absurd same (other.2 request time serials)
    · exact phased_update sound own.1 trivial
    · exact guarded_cons sound.guarded other.1
    · exact cached_cons sound.cached other.2
    · exact spaced_cons sound.spaced fun request time same => absurd same (other.1 request time)
    · refine fresh_cons sound.fresh fun reader time serials same => ?_
      rcases responds with ⟨list, expires, isList, alive, rfl⟩ | ⟨-, rfl⟩
      · obtain ⟨stored, rfl, last⟩ := sound.cached.last list expires isList
        cases same
        exact ⟨stored, last, alive⟩
      · cases same
    · refine ready_cons sound.ready fun reader time same between before updater stored serials split
        kept => ?_
      rcases responds with ⟨list, expires, -, -, rfl⟩ | ⟨dead, rfl⟩
      · cases same
      · cases same
        obtain ⟨latest, expires, isList, later⟩ :=
          sound.cached.kept between before updater stored serials split kept
        exact Nat.le_trans later (dead latest expires isList)
  · exact sound

private theorem sound_step (sound : Sound s) (event : Event Serials) : Sound (step s event) := by
  have later := sound.later event.elapsed
  rw [step]
  dsimp only
  split
  · exact sound_advance later _ _
  · refine later.note (.sentinelLost _) rfl rfl rfl nofun nofun ?_ ?_ ?_ ?_ ?_ ?_
    · exact fun request => (later.phased request).cons nofun
    · intro between earlier request start split kept
      rcases List.cons_eq_append_iff.mp split with ⟨rfl, same⟩ | ⟨others, rfl, rest⟩
      · cases (List.cons.inj same).1
      · exact absurd List.mem_cons_self (kept _)
    · exact cached_cons later.cached nofun
    · exact spaced_cons later.spaced nofun
    · exact fresh_cons later.fresh nofun
    · exact ready_cons later.ready nofun
  · refine later.note (.listLost _) rfl rfl rfl nofun nofun ?_ ?_ ?_ ?_ ?_ ?_
    · exact fun request => (later.phased request).cons nofun
    · exact guarded_cons later.guarded nofun
    · constructor
      · exact nofun
      · intro between before updater now serials split kept
        rcases List.cons_eq_append_iff.mp split with ⟨rfl, same⟩ | ⟨others, rfl, rest⟩
        · cases (List.cons.inj same).1
        · exact absurd List.mem_cons_self (kept _)
    · exact spaced_cons later.spaced nofun
    · exact fresh_cons later.fresh nofun
    · exact ready_cons later.ready nofun

private theorem sound_run (events : List (Event Serials)) : Sound (run events) := by
  rw [run]
  induction events using List.reverseRecOn with
  | nil => exact sound_start
  | append_singleton events event ih =>
    rw [List.foldl_append]
    exact sound_step ih event

/-- Lists that are stored in time are stored in order, as long as the sentinel is not lost. -/
theorem ordered_of_prompt (sound : Sound s) (kept : ∀ now, .sentinelLost now ∉ s.log)
    (prompt : Prompt s.log) : Ordered s.log := by
  intro later between before request time serials first now list start start' split started started'
  have stored : .stored request time serials ∈ s.log := by simp [split]
  have storedFirst : .stored first now list ∈ s.log := by simp [split]
  have apart {one other : Nat} {since since' : Nat} (sooner : since' ≤ since)
      (startedOne : .started one since ∈ s.log) (startedOther : .started other since' ∈ s.log)
      (different : one ≠ other) : since' + sentinelTimeout ≤ since := by
    obtain ⟨newer, older, whole⟩ := List.append_of_mem startedOne
    have inside := startedOther
    rw [whole, List.mem_append, List.mem_cons] at inside
    rcases inside with after | same | earlier
    · obtain ⟨newest, middle, split⟩ := List.append_of_mem after
      rw [split, List.append_assoc, List.cons_append] at whole
      have spaced := sound.spaced newest middle older other since' one since whole
        fun lost inside =>
        kept lost (by simp [whole, inside])
      omega
    · exact absurd (Entry.started.inj same).1.symm different
    · obtain ⟨middle, oldest, split⟩ := List.append_of_mem earlier
      rw [split] at whole
      exact sound.spaced newer middle oldest one since other since' whole fun lost inside =>
        kept lost (by simp [whole, inside])
  have sooner : now ≤ time := by
    have times := sound.times
    rw [split, List.pairwise_append, List.pairwise_cons] at times
    exact times.2.1.1 (.stored first now list) (by simp)
  have different : request ≠ first := by
    rintro rfl
    have single := sound.single
    rw [split, List.pairwise_append, List.pairwise_cons] at single
    exact single.2.1.1 (.stored request now list) (by simp) request time now serials list rfl rfl
  have inTime := prompt request time serials start stored started
  have began := sound.began first now list start' storedFirst started'
  by_contra late
  have spaced := apart (Nat.le_of_not_lt late) started' started different.symm
  omega

end Invariant

/-- In every interleaving of requests, with fetches that take any time or fail and a cache that may
lose its entries: updates start at least a minute apart unless the sentinel is lost, what is served
from the cache is what was stored last, less than five minutes ago, by a request that fetched it
after it had started, and a list is missing only if none was stored in the last five minutes or it
was lost. If lists are stored within a minute, they are stored in the order of the updates. -/
theorem serials_served {Serials : Type} (events : List (Event Serials)) :
    Spaced (run events).log ∧ Fresh (run events).log ∧ Ready (run events).log ∧
      ((∀ now, .sentinelLost now ∉ (run events).log) → Prompt (run events).log →
        Ordered (run events).log) :=
  have sound := sound_run events
  ⟨sound.spaced, sound.fresh, sound.ready, ordered_of_prompt sound⟩

/-- Two requests update the list, a minute apart, and a third one is served what the second has
stored. -/
private def events₁₃ : List (Event Nat) :=
  [⟨1, .request 1 none⟩, ⟨2, .request 1 (some 7)⟩, ⟨3, .request 1 none⟩,
    ⟨60, .request 2 none⟩, ⟨1, .request 2 (some 8)⟩, ⟨1, .request 2 none⟩,
    ⟨1, .request 3 none⟩, ⟨1, .request 3 none⟩]

theorem serials_served_twice :
    (run events₁₃).log = [.served 3 70 8, .stored 2 68 8, .fetched 2 67 8, .started 2 66,
      .stored 1 6 7, .fetched 1 3 7, .started 1 1] ∧
    Prompt (run events₁₃).log ∧ Ordered (run events₁₃).log := by
  have log : (run events₁₃).log = [.served 3 70 8, .stored 2 68 8, .fetched 2 67 8, .started 2 66,
      .stored 1 6 7, .fetched 1 3 7, .started 1 1] := by
    simp [run, events₁₃, step, advance, State.start, alive, answer, sentinelTimeout, listTimeout]
  have prompt : Prompt (run events₁₃).log := by
    rw [log]
    intro request now serials start stored started
    simp only [List.mem_cons, reduceCtorEq, false_or, List.not_mem_nil, or_false,
      Entry.stored.injEq, Entry.started.injEq] at stored started
    simp only [sentinelTimeout]
    omega
  have kept : ∀ now, .sentinelLost now ∉ (run events₁₃).log := by
    rw [log]
    simp
  exact ⟨log, prompt, (serials_served events₁₃).2.2.2 kept prompt⟩

end DesecStack.Views.Serials
