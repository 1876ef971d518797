/- module: DesecStack/Accounts/Sessions
   source: api/desecapi/authentication.py 37-81, api/desecapi/models/tokens.py 132-160
   digest: Tokens are accepted within their limits, and after these have passed, never again. -/

import DesecStack.Accounts.TokenRows

set_option autoImplicit false
set_option relaxedAutoImplicit false

namespace DesecStack.Accounts.Sessions

open Library.PyText (Text)
open Actions Operations TokenRows
open Signed (plainEnvironment)

/-- The secrets drawn for the tokens, and `make_hash`, by which they are stored and found. -/
structure Keys (Key : Type) where
  plain : Nat → Text
  makeHash : Text → Key

/-- What a client presents, and whether the check that comes after that of the token admits it: of
the address of the client, or of the user name. -/
structure Attempt where
  key : Text
  admitted : Bool

/-- A request is authenticated, or another account operation takes place. -/
inductive Event (Hash : Type) where
  | request (attempt : Attempt)
  | operation (operation : Operation Hash) (other : ∀ token, operation ≠ .useToken token)

/-- The limits of the token are set. -/
def Event.Updates {Hash : Type} (id : Nat) : Event Hash → Prop
  | .operation (.updateToken token ..) _ => token = id
  | _ => False

section Authentication

variable {Hash Key : Type} [DecidableEq Key] (env : Environment Hash) (keys : Keys Key)

/-- `TokenAuthentication.authenticate_credentials`: the last use is saved where it succeeds. -/
def authenticateCredentials (key : Text) (s : Store Hash) : Store Hash × Option Token :=
  match s.tokens.find? fun token => keys.makeHash (keys.plain token.id) = keys.makeHash key with
  | none => (s, none)
  | some token =>
    if s.active token.userId then
      if isValidToken (s.now env) token then (useToken env token.id s.tick, some token)
      else (s.tick, none)
    else (s, none)

/-- `authenticate`: the last use stays saved where the client is not admitted. -/
def authenticate (attempt : Attempt) (s : Store Hash) : Store Hash × Option Token :=
  match authenticateCredentials env keys attempt.key s with
  | (s', some token) => (s', if attempt.admitted then some token else none)
  | (s', none) => (s', none)

variable [DecidableEq Hash]

def step (s : Store Hash) : Event Hash → Store Hash
  | .request attempt => (authenticate env keys attempt s).1
  | .operation operation _ => Operations.step env s operation

def stateAfter (events : List (Event Hash)) : Store Hash :=
  events.foldl (step env keys) (Store.empty Hash)

/-- The time at which a request uses the token. -/
def useOf (id : Nat) (s : Store Hash) : Event Hash → Option Nat
  | .request attempt =>
    ((authenticateCredentials env keys attempt.key s).2.filter fun token => token.id = id).map
      fun _ => s.tick.now env
  | .operation .. => none

/-- The time at which a request last used the token, if one did. -/
def lastUse (id : Nat) (events : List (Event Hash)) : Option Nat :=
  (events.foldl (fun (state : Store Hash × Option Nat) event =>
    (step env keys state.1 event, (useOf env keys id state.1 event).or state.2))
    (Store.empty Hash, none)).2

variable {env keys}

private theorem stateAfter_append (events later : List (Event Hash)) :
    stateAfter env keys (events ++ later) = later.foldl (step env keys) (stateAfter env keys events)
    := List.foldl_append ..

private theorem stateAfter_single (events : List (Event Hash)) (event : Event Hash) :
    stateAfter env keys (events ++ [event]) = step env keys (stateAfter env keys events) event :=
  stateAfter_append events [event]

private theorem lastUse_state (id : Nat) (events : List (Event Hash)) :
    (events.foldl (fun (state : Store Hash × Option Nat) event =>
      (step env keys state.1 event, (useOf env keys id state.1 event).or state.2))
      (Store.empty Hash, none)).1 = stateAfter env keys events := by
  induction events using List.reverseRecOn with
  | nil => rfl
  | append_singleton events event ih =>
    rw [List.foldl_append, stateAfter_single]
    exact congrArg (fun s => step env keys s event) ih

private theorem lastUse_single (id : Nat) (events : List (Event Hash)) (event : Event Hash) :
    lastUse env keys id (events ++ [event]) =
      (useOf env keys id (stateAfter env keys events) event).or (lastUse env keys id events) := by
  rw [lastUse, List.foldl_append, ← lastUse_state id events]
  rfl

end Authentication

section Steps

variable {Hash Key : Type} [DecidableEq Key] {env : Environment Hash} {keys : Keys Key}
  {s t : Store Hash} {token : Token}

private theorem of_authenticateCredentials {key : Text}
    (passed : authenticateCredentials env keys key s = (t, some token)) :
    token ∈ s.tokens ∧ s.active token.userId = true ∧ isValidToken (s.now env) token = true ∧
      t = useToken env token.id s.tick := by
  rw [authenticateCredentials] at passed
  split at passed
  · cases passed
  · next row found =>
    split at passed
    · next active =>
      split at passed
      · next valid =>
        cases passed
        exact ⟨List.mem_of_find?_eq_some found, active, valid, rfl⟩
      · cases passed
    · cases passed

private theorem keeps_of_authenticateCredentials {key : Text}
    (refused : authenticateCredentials env keys key s = (t, none)) : Keeps env s t := by
  rw [authenticateCredentials] at refused
  split at refused
  · cases refused
    exact Keeps.refl s
  · split at refused
    · split at refused
      · cases refused
      · cases refused
        exact keeps_of_eq le_rfl (Nat.le_succ _) rfl
    · cases refused
      exact Keeps.refl s

private theorem authenticate_state (attempt : Attempt) (s : Store Hash) :
    (authenticate env keys attempt s).1 = (authenticateCredentials env keys attempt.key s).1 := by
  rw [authenticate]
  split
  · next same => rw [same]
  · next same => rw [same]

private theorem of_authenticate {attempt : Attempt}
    (passed : (authenticate env keys attempt s).2 = some token) :
    token ∈ s.tokens ∧ s.active token.userId = true ∧ isValidToken (s.now env) token = true := by
  rw [authenticate] at passed
  split at passed
  · next t row authenticated =>
    dsimp only at passed
    split at passed
    · cases passed
      obtain ⟨member, active, valid, -⟩ := of_authenticateCredentials authenticated
      exact ⟨member, active, valid⟩
    · cases passed
  · cases passed

/-- A token row before and after an event in which a request may use it. -/
structure Continues (event : Event Hash) (use : Option Nat) (old token : Token) : Prop where
  id : token.id = old.id
  created : token.created = old.created
  lastUsed : token.lastUsed = use.or old.lastUsed
  limits : ¬ event.Updates old.id →
    token.maxAge = old.maxAge ∧ token.maxUnusedPeriod = old.maxUnusedPeriod

/-- What an event does to the token rows. -/
structure Follows (env : Environment Hash) (keys : Keys Key) (s : Store Hash) (event : Event Hash)
    (t : Store Hash) : Prop where
  nextId : s.nextId ≤ t.nextId
  calls : s.calls ≤ t.calls
  ordered : Ordered s → Ordered t
  tokens : ∀ token ∈ t.tokens,
    (∃ old ∈ s.tokens, Continues event (useOf env keys old.id s event) old token) ∨
      Inserted env s t token

private theorem follows_request (attempt : Attempt) (s : Store Hash) :
    Follows env keys s (.request attempt) (authenticate env keys attempt s).1 := by
  rw [authenticate_state]
  cases result : authenticateCredentials env keys attempt.key s with
  | mk t passed =>
    cases passed with
    | none =>
      have alters : Alters env s (.useToken s.nextId) t :=
        alters_of_keeps (keeps_of_authenticateCredentials result)
      have unused (id : Nat) : useOf env keys id s (.request attempt) = none := by
        rw [useOf, result]
        rfl
      obtain ⟨news, sublist, inserted, -⟩ := (keeps_of_authenticateCredentials result).tokens
      refine ⟨alters.nextId, alters.calls, alters.ordered, fun token member => ?_⟩
      rcases List.mem_append.mp (sublist.subset member) with old | new
      · refine Or.inl ⟨token, old, rfl, rfl, ?_, fun _ => ⟨rfl, rfl⟩⟩
        rw [unused, Option.none_or]
      · exact Or.inr (inserted token new)
    | some used =>
      obtain ⟨-, -, -, rfl⟩ := of_authenticateCredentials result
      have use (id : Nat) : useOf env keys id s (.request attempt) =
          if used.id = id then some (s.tick.now env) else none := by
        rw [useOf, result]
        by_cases same : used.id = id
        · simp [same]
        · simp [same]
      have ids (token : Token) : (if token.id = used.id then
          { token with lastUsed := some (s.tick.now env) } else token).id = token.id := by
        split <;> rfl
      refine ⟨le_rfl, Nat.le_add_right s.calls 2, fun ordered => ⟨?_, ?_⟩, fun token member => ?_⟩
      · refine List.pairwise_map.mpr (ordered.ids.imp fun less => ?_)
        rwa [ids, ids]
      · intro token member
        obtain ⟨old, there, rfl⟩ := List.mem_map.mp member
        rw [ids]
        exact ordered.given old there
      · obtain ⟨old, there, rfl⟩ := List.mem_map.mp member
        refine Or.inl ⟨old, there, ids old, ?_, ?_, fun _ => ?_⟩
        · split <;> rfl
        · rw [use]
          by_cases same : old.id = used.id
          · simp [same]
          · simp [same, Ne.symm same]
        · split <;> exact ⟨rfl, rfl⟩

variable [DecidableEq Hash]

private theorem follows_step (s : Store Hash) (event : Event Hash) :
    Follows env keys s event (step env keys s event) := by
  cases event with
  | request attempt => exact follows_request attempt s
  | operation operation other =>
    have alters : Alters env s operation (Operations.step env s operation) :=
      alters_step s operation
    refine ⟨alters.nextId, alters.calls, alters.ordered, fun token member => ?_⟩
    rcases alters.tokens token member with ⟨old, there, changes⟩ | inserted
    · refine Or.inl ⟨old, there, ?_⟩
      cases changes with
      | used now => exact absurd now (other old.id)
      | updated name permCreateDomain permDeleteDomain permManageTokens autoPolicy maxAge
          maxUnusedPeriod policiesAdmit now =>
        subst now
        exact ⟨rfl, rfl, rfl, fun elsewhere => absurd rfl elsewhere⟩
      | _ => exact ⟨rfl, rfl, rfl, fun _ => ⟨rfl, rfl⟩⟩
    · exact Or.inr inserted

end Steps

section Runs

variable {Hash Key : Type} [DecidableEq Hash] [DecidableEq Key] {env : Environment Hash}
  {keys : Keys Key} {s : Store Hash}

/-- What the rows say of their use is what has happened. -/
structure Recorded (env : Environment Hash) (keys : Keys Key) (events : List (Event Hash)) :
    Prop where
  ordered : Ordered (stateAfter env keys events)
  used : ∀ token ∈ (stateAfter env keys events).tokens,
    token.lastUsed = lastUse env keys token.id events
  unused : ∀ id, (stateAfter env keys events).nextId ≤ id → lastUse env keys id events = none

omit [DecidableEq Hash] in
private theorem of_useOf {id : Nat} {event : Event Hash} (used : useOf env keys id s event ≠ none) :
    ∃ token ∈ s.tokens, token.id = id ∧ isValidToken (s.now env) token = true := by
  cases event with
  | operation operation other => exact absurd rfl used
  | request attempt =>
    rw [useOf] at used
    cases result : authenticateCredentials env keys attempt.key s with
    | mk t passed =>
      rw [result] at used
      cases passed with
      | none => exact absurd rfl used
      | some token =>
        obtain ⟨member, -, valid, -⟩ := of_authenticateCredentials result
        refine ⟨token, member, ?_, valid⟩
        by_contra different
        exact used (by simp [different])

omit [DecidableEq Hash] in
private theorem useOf_eq_none (ordered : Ordered s) {id : Nat} (fresh : s.nextId ≤ id)
    (event : Event Hash) : useOf env keys id s event = none := by
  by_contra used
  obtain ⟨token, member, same, -⟩ := of_useOf used
  have given := ordered.given token member
  omega

private theorem recorded (events : List (Event Hash)) : Recorded env keys events := by
  induction events using List.reverseRecOn with
  | nil => exact ⟨ordered_empty, nofun, fun _ _ => rfl⟩
  | append_singleton events event ih =>
    have follows : Follows env keys (stateAfter env keys events) event _ := follows_step _ event
    constructor
    · rw [stateAfter_single]
      exact follows.ordered ih.ordered
    · intro token member
      rw [stateAfter_single] at member
      rw [lastUse_single]
      rcases follows.tokens token member with ⟨old, there, continues⟩ | inserted
      · rw [continues.lastUsed, ih.used old there, continues.id]
      · rw [inserted.unused, useOf_eq_none ih.ordered inserted.fresh, ih.unused _ inserted.fresh]
        rfl
    · intro id fresh
      rw [stateAfter_single] at fresh
      rw [lastUse_single, useOf_eq_none ih.ordered (follows.nextId.trans fresh),
        ih.unused id (follows.nextId.trans fresh)]
      rfl

private theorem nextId_le (earlier later : List (Event Hash)) :
    (stateAfter env keys earlier).nextId ≤ (stateAfter env keys (earlier ++ later)).nextId := by
  induction later using List.reverseRecOn with
  | nil => rw [List.append_nil]
  | append_singleton later event ih =>
    rw [← List.append_assoc, stateAfter_single]
    exact ih.trans (follows_step _ event).nextId

/-- While its limits are not set, a token keeps them, and its time of creation. -/
theorem limits_kept (earlier later : List (Event Hash)) {token row : Token}
    (member : token ∈ (stateAfter env keys earlier).tokens)
    (unmanaged : ∀ event ∈ later, ¬ event.Updates token.id)
    (there : row ∈ (stateAfter env keys (earlier ++ later)).tokens) (own : row.id = token.id) :
    row.created = token.created ∧ row.maxAge = token.maxAge ∧
      row.maxUnusedPeriod = token.maxUnusedPeriod := by
  induction later using List.reverseRecOn generalizing row with
  | nil =>
    rw [List.append_nil] at there
    rw [(recorded earlier).ordered.unique there member own]
    exact ⟨rfl, rfl, rfl⟩
  | append_singleton later event ih =>
    rw [← List.append_assoc, stateAfter_single] at there
    have before : ∀ event ∈ later, ¬ event.Updates token.id := fun event member =>
      unmanaged event (List.mem_append_left _ member)
    rcases (follows_step _ event).tokens row there with ⟨old, present, continues⟩ | inserted
    · have same : old.id = token.id := continues.id.symm.trans own
      obtain ⟨created, maxAge, maxUnusedPeriod⟩ := ih before present same
      obtain ⟨age, period⟩ := continues.limits (same ▸ unmanaged event (by simp))
      exact ⟨continues.created.trans created, age.trans maxAge, period.trans maxUnusedPeriod⟩
    · have given := (recorded earlier).ordered.given token member
      have nextId : (stateAfter env keys earlier).nextId ≤
          (stateAfter env keys (earlier ++ later)).nextId := nextId_le earlier later
      have fresh := inserted.fresh
      omega

/-- The token is gone, or outside of its limits. -/
def Dead (env : Environment Hash) (s : Store Hash) (id : Nat) : Prop :=
  id < s.nextId ∧ ∀ token ∈ s.tokens, token.id = id → isValidToken (s.now env) token = false

private theorem isValidToken_antitone {now later : Nat} {old token : Token} (wait : now ≤ later)
    (created : token.created = old.created) (lastUsed : token.lastUsed = old.lastUsed)
    (maxAge : token.maxAge = old.maxAge) (period : token.maxUnusedPeriod = old.maxUnusedPeriod)
    (valid : isValidToken later token = true) : isValidToken now old = true := by
  rw [isValidToken, created, lastUsed, maxAge, period] at valid
  simp only [isValidToken, Bool.and_eq_true, Option.all_eq_true, decide_eq_true_eq] at valid ⊢
  exact ⟨fun age given => wait.trans (valid.1 age given),
    fun unused given => wait.trans (valid.2 unused given)⟩

private theorem dead_step (monotone : Monotone env.clock) {id : Nat} {event : Event Hash}
    (unmanaged : ¬ event.Updates id) (dead : Dead env s id) :
    Dead env (step env keys s event) id := by
  have follows : Follows env keys s event (step env keys s event) := follows_step s event
  have unused : useOf env keys id s event = none := by
    by_contra used
    obtain ⟨token, member, same, valid⟩ := of_useOf used
    rw [dead.2 token member same] at valid
    cases valid
  refine ⟨dead.1.trans_le follows.nextId, fun token member own => ?_⟩
  rcases follows.tokens token member with ⟨old, there, continues⟩ | inserted
  · have same : old.id = id := continues.id.symm.trans own
    obtain ⟨age, period⟩ := continues.limits (same ▸ unmanaged)
    have lastUsed : token.lastUsed = old.lastUsed := by
      rw [continues.lastUsed, same, unused, Option.none_or]
    have invalid := dead.2 old there same
    by_contra valid
    rw [Bool.not_eq_false] at valid
    have before : isValidToken (s.now env) old = true :=
      isValidToken_antitone (monotone follows.calls) continues.created lastUsed age period valid
    rw [before] at invalid
    cases invalid
  · have fresh := inserted.fresh
    have given := dead.1
    omega

private theorem dead_run (monotone : Monotone env.clock) {id : Nat} (later : List (Event Hash))
    (unmanaged : ∀ event ∈ later, ¬ event.Updates id) (dead : Dead env s id) :
    Dead env (later.foldl (step env keys) s) id := by
  induction later generalizing s with
  | nil => exact dead
  | cons event later ih =>
    exact ih (fun other member => unmanaged other (List.mem_cons_of_mem _ member))
      (dead_step monotone (unmanaged event (List.mem_cons_self ..)) dead)

/-- A token is accepted for active users only, within the limits that it has been given, counted
from its creation and from its last use, and only if it has not been outside of them since. -/
theorem sessions_bounded (monotone : Monotone env.clock) (earlier later : List (Event Hash))
    (token row : Token) (member : token ∈ (stateAfter env keys earlier).tokens)
    (unmanaged : ∀ event ∈ later, ¬ event.Updates token.id) (attempt : Attempt)
    (passed : (authenticate env keys attempt (stateAfter env keys (earlier ++ later))).2 = some row)
    (own : row.id = token.id) :
    (stateAfter env keys (earlier ++ later)).active row.userId = true ∧
    (∀ maxAge, token.maxAge = some maxAge →
      (stateAfter env keys (earlier ++ later)).now env ≤ token.created + maxAge) ∧
    (∀ period, token.maxUnusedPeriod = some period →
      (stateAfter env keys (earlier ++ later)).now env ≤
        (lastUse env keys token.id (earlier ++ later)).getD token.created + period) ∧
    ∀ before after, later = before ++ after →
      ∃ there ∈ (stateAfter env keys (earlier ++ before)).tokens, there.id = token.id ∧
        isValidToken ((stateAfter env keys (earlier ++ before)).now env) there = true := by
  obtain ⟨present, active, valid⟩ := of_authenticate passed
  obtain ⟨created, maxAge, maxUnusedPeriod⟩ :=
    limits_kept earlier later member unmanaged present own
  have limits := valid
  simp only [isValidToken, Bool.and_eq_true, Option.all_eq_true, decide_eq_true_eq, created, maxAge,
    maxUnusedPeriod, (recorded _).used row present, own] at limits
  refine ⟨active, limits.1, limits.2, fun before after split => ?_⟩
  by_contra gone
  push Not at gone
  subst split
  have dead : Dead env (stateAfter env keys (earlier ++ before)) token.id := by
    refine ⟨?_, fun other there same => Bool.eq_false_iff.mpr (gone other there same)⟩
    exact ((recorded earlier).ordered.given token member).trans_le (nextId_le earlier before)
  have stillDead : Dead env (stateAfter env keys ((earlier ++ before) ++ after)) token.id := by
    rw [stateAfter_append]
    exact dead_run monotone after
      (fun event inside => unmanaged event (List.mem_append_right _ inside)) dead
  rw [List.append_assoc] at stillDead
  rw [stillDead.2 row present own] at valid
  cases valid

end Runs

section Sample

/-- Ten minutes pass from call to call. -/
private def leisurely : Environment Text :=
  { plainEnvironment with clock := fun calls => (calls + 1) * 600000000 }

private def plainKeys : Keys Text := ⟨fun id => "secret".toList ++ Library.PyText.ofInt id, id⟩

/-- A user registers, confirms the account and logs in. -/
private def loggedIn : List (Event Text) :=
  let registered : Operation Text :=
    .register "user@mail.test".toList (some "password".toList) true true none
  let code : Code Text := ⟨.activate 0 none,
    (state leisurely (Operations.step leisurely (Store.empty Text) registered)
      (.activate 0 none)).getD []⟩
  [.operation registered nofun,
    .operation (.redeem code ⟨false, none, true, [], true, .raises⟩) nofun,
    .operation (.login 0) nofun]

private def asking : Attempt := ⟨"secret1".toList, true⟩

private def session (lastUsed : Option Nat) : Token :=
  { id := 1, owner := 0, userOverride := none, mfa := some false, permCreateDomain := true
    permDeleteDomain := true, permManageTokens := true, autoPolicy := false, name := []
    created := 2400000000, lastUsed, maxAge := some (7 * 86400000000)
    maxUnusedPeriod := some 3600000000 }

private theorem leisurely_monotone : Monotone leisurely.clock := fun first later le => by
  show (first + 1) * 600000000 ≤ (later + 1) * 600000000
  omega

/-- The token is used, and then used again. -/
theorem sessions_bounded_login :
    let s := stateAfter leisurely plainKeys (loggedIn ++ [.request asking])
    s.now leisurely ≤ (session none).created + 7 * 86400000000 ∧
      s.now leisurely ≤ (lastUse leisurely plainKeys 1 (loggedIn ++ [.request asking])).getD
        (session none).created + 3600000000 := by
  have unmanaged : ∀ event ∈ [Event.request asking], ¬ (event : Event Text).Updates 1 := by
    intro event member
    rw [List.mem_singleton.mp member]
    exact fun never => never
  have member : session none ∈ (stateAfter leisurely plainKeys loggedIn).tokens := by
    decide +kernel
  have passed : (authenticate leisurely plainKeys asking
      (stateAfter leisurely plainKeys (loggedIn ++ [.request asking]))).2 =
        some (session (some 4200000000)) := by
    decide +kernel
  obtain ⟨-, age, period, -⟩ := sessions_bounded leisurely_monotone loggedIn [.request asking]
    (session none) _ member unmanaged asking passed rfl
  exact ⟨age _ rfl, period _ rfl⟩

end Sample

end DesecStack.Accounts.Sessions
