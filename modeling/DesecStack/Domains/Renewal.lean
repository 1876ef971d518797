/- module: DesecStack/Domains/Renewal
   source: api/desecapi/management/commands/scavenge-unused.py,
     api/desecapi/models/authenticated_actions.py, api/desecapi/models/domains.py
   digest: Runs of the scavenging command among writes, publications and renewals. -/

import DesecStack.Domains.Scavenge
import DesecStack.Library.Runs
import Mathlib.Tactic.IntervalCases

set_option autoImplicit false
set_option relaxedAutoImplicit false

namespace DesecStack.Domains.Renewal

open Library.PyText (Text)
open Library.Runs (foldlM_history)
open Scavenge

/-- The domains, the clock, and what the executions have left behind: the time of the last one,
and the emails queued, by time and domain. -/
structure State where
  domains : List Domain
  nextId : Nat
  clock : Nat
  lastExecution : Option Nat
  emails : List (Nat × Nat)

def initial : State := ⟨[], 0, 0, none, []⟩

/-- What happens to domains. An RRset that is written may exist already, with a `touched` time of
its own; an RRset that is deleted goes with its time, and the domain is published. An execution
finds some users inactive. -/
inductive Event where
  | createDomain (name : Text) (owner : Nat) (isLocallyRegistrable : Bool)
  | writeRRset (id : Nat) (replaced : Option Nat)
  | deleteRRset (id : Nat) (touched : Nat)
  | publish (id : Nat)
  | renew (id : Nat)
  | deleteDomain (id : Nat)
  | scavenge (inactive : List Nat)

structure Occurrence where
  time : Nat
  event : Event

def isActive (inactive : List Nat) (owner : Nat) : Bool := !inactive.contains owner

/-- An update of one row. -/
def updated (id : Nat) (change : Domain → Domain) (domains : List Domain) : List Domain :=
  domains.map fun domain => if domain.id = id then change domain else domain

def Domain.written (now : Nat) (replaced : Option Nat) (domain : Domain) : Domain :=
  { domain with touched := now :: replaced.elim domain.touched domain.touched.erase }

/-- An RRset is deleted together with the publication that ends its transaction. -/
def Domain.unwritten (now touched : Nat) (domain : Domain) : Domain :=
  { domain with touched := domain.touched.erase touched, published := some now }

def Domain.publishedAt (now : Nat) (domain : Domain) : Domain :=
  { domain with published := some now }

/-- `AuthenticatedRenewDomainBasicUserAction._act` -/
def Domain.redeemed (now : Nat) (domain : Domain) : Domain :=
  { domain with renewalState := .fresh, renewalChanged := now }

/-- `Domain.__init__` sets the renewal state of a new row. -/
def newDomain (id : Nat) (name : Text) (owner now : Nat) (isLocallyRegistrable : Bool) : Domain :=
  ⟨id, name, owner, if isLocallyRegistrable then .fresh else .immortal, now, [], none⟩

/-- Time passes between an execution and anything else, and consecutive executions are less than
183 days apart. -/
def admissible (s : State) (o : Occurrence) : Bool :=
  s.clock ≤ o.time && s.lastExecution.all (· < o.time) &&
    match o.event with
    | .scavenge _ => s.clock < o.time && s.lastExecution.all (o.time < · + 183 * day)
    | _ => true

def perform (s : State) (now : Nat) : Event → State
  | .createDomain name owner isLocallyRegistrable =>
    { s with
      domains := s.domains ++ [newDomain s.nextId name owner now isLocallyRegistrable]
      nextId := s.nextId + 1
      clock := now }
  | .writeRRset id replaced =>
    { s with domains := updated id (Domain.written now replaced) s.domains, clock := now }
  | .deleteRRset id touched =>
    { s with domains := updated id (Domain.unwritten now touched) s.domains, clock := now }
  | .publish id =>
    { s with domains := updated id (Domain.publishedAt now) s.domains, clock := now }
  | .renew id =>
    { s with domains := updated id (Domain.redeemed now) s.domains, clock := now }
  | .deleteDomain id =>
    { s with domains := s.domains.filter (·.id ≠ id), clock := now }
  | .scavenge inactive =>
    { s with
      domains := (handle (isActive inactive) now s.domains).1
      clock := now
      lastExecution := some now
      emails := s.emails ++ (handle (isActive inactive) now s.domains).2.map fun id => (now, id) }

def step (s : State) (o : Occurrence) : Option State :=
  if admissible s o then some (perform s o.time o.event) else none

/-- An RRset of the domain is touched, the domain is published, or its renewal is redeemed. -/
def Event.stirs (id : Nat) : Event → Bool
  | .writeRRset other _ => other = id
  | .deleteRRset other _ => other = id
  | .publish other => other = id
  | .renew other => other = id
  | _ => false

/-- Nothing stirs the domain. -/
def Quiet (occurrences : List Occurrence) (id : Nat) : Prop :=
  ∀ o ∈ occurrences, o.event.stirs id = false

/-- Every execution finds the owner active. -/
def OwnerActive (occurrences : List Occurrence) (owner : Nat) : Prop :=
  ∀ o ∈ occurrences, ∀ inactive, o.event = .scavenge inactive → isActive inactive owner = true

/-- After some occurrences, an execution takes a domain to a renewal state, with an email. The
row, as the execution's own renewal leaves it, meets a condition. -/
def WentTo (renewalState : RenewalState) (past : List Occurrence) (now : Nat)
    (inactive : List Nat) (id : Nat) (condition : Domain → Prop) : Prop :=
  ∃ s s' before after, past.foldlM step initial = some s ∧
    step s ⟨now, .scavenge inactive⟩ = some s' ∧
    before ∈ s.domains ∧ before.id = id ∧ condition (before.renewed (isActive inactive) now) ∧
    after ∈ s'.domains ∧ after.id = id ∧ after.renewalState = renewalState ∧
    (now, id) ∈ s'.emails

/-- The domain is FRESH, and the last change of that and the last activity are 183 days old. -/
def FreshOnRecord (now : Nat) (domain : Domain) : Prop :=
  domain.renewalState = .fresh ∧ date domain.renewalChanged + 183 ≤ date now ∧
    ∀ lastActive, domain.lastActive = some lastActive → date lastActive + 183 ≤ date now

/-- The domain is FRESH at all times in the 183 days up to an execution: in every state that is
still there after that day. -/
def FreshThroughout (past : List Occurrence) (now id : Nat) : Prop :=
  ∀ before after s, past = before ++ after →
    (∀ o ∈ after.head?, date now < date o.time + 183) → before.foldlM step initial = some s →
    ∃ domain ∈ s.domains, domain.id = id ∧ domain.renewalState = .fresh

/-- The past of a domain that an execution deletes on the day `r`: two executions gave notice, the
second one 21 days after the first one and 7 days before `r`; nothing stirred the domain since the
first one, which found it as `Fresh` says. -/
def TwiceNoticed (Fresh : List Occurrence → Nat → Domain → Prop) (past : List Occurrence)
    (r id : Nat) : Prop :=
  ∃ before n early mid w late after,
    past = before ++ ⟨n, .scavenge early⟩ :: (mid ++ ⟨w, .scavenge late⟩ :: after) ∧
    WentTo .notified before n early id (Fresh before n) ∧
    WentTo .warned (before ++ ⟨n, .scavenge early⟩ :: mid) w late id
      (fun domain => domain.renewalState = .notified) ∧
    date n + 21 ≤ date w ∧ date w + 7 ≤ date r ∧ Quiet (mid ++ after) id

private theorem step_eq_some_iff {s s' : State} {o : Occurrence} :
    step s o = some s' ↔ admissible s o = true ∧ s' = perform s o.time o.event := by
  rw [step]
  split
  · next admitted => simp [admitted, eq_comm]
  · next refused => simp [refused]

section Clock

variable {s : State} {o : Occurrence}

private theorem le_of_admissible (admitted : admissible s o = true) : s.clock ≤ o.time := by
  rw [admissible, Bool.and_eq_true, Bool.and_eq_true, decide_eq_true_eq] at admitted
  exact admitted.1.1

private theorem lt_of_admissible (admitted : admissible s o = true) {last : Nat}
    (execution : s.lastExecution = some last) : last < o.time := by
  rw [admissible, Bool.and_eq_true, Bool.and_eq_true, execution] at admitted
  simpa using admitted.1.2

private theorem execution_bounds {now : Nat} {inactive : List Nat}
    (admitted : admissible s ⟨now, .scavenge inactive⟩ = true) :
    s.clock < now ∧ ∀ last, s.lastExecution = some last → now < last + 183 * day := by
  rw [admissible, Bool.and_eq_true] at admitted
  simp only [Bool.and_eq_true, decide_eq_true_eq, Option.all_eq_true] at admitted
  exact ⟨admitted.2.1, admitted.2.2⟩

end Clock

section Rows

/-- What becomes of a row that an occurrence stirs without a renewal: it is active at that time. -/
structure Stirred (now : Nat) (domain row : Domain) : Prop where
  id : row.id = domain.id
  owner : row.owner = domain.owner
  renewalState : row.renewalState = domain.renewalState
  renewalChanged : row.renewalChanged = domain.renewalChanged
  touched : ∀ time ∈ row.touched, time = now ∨ time ∈ domain.touched
  published : row.published = some now ∨ row.published = domain.published
  active : now ∈ row.touched ∨ row.published = some now

theorem stirred_written (now : Nat) (replaced : Option Nat) (domain : Domain) :
    Stirred now domain (Domain.written now replaced domain) where
  id := rfl
  owner := rfl
  renewalState := rfl
  renewalChanged := rfl
  touched := by
    intro time member
    rcases List.mem_cons.mp member with same | other
    · exact .inl same
    · cases replaced with
      | none => exact .inr other
      | some touched => exact .inr (List.mem_of_mem_erase other)
  published := .inr rfl
  active := .inl (List.mem_cons_self ..)

theorem stirred_unwritten (now touched : Nat) (domain : Domain) :
    Stirred now domain (Domain.unwritten now touched domain) where
  id := rfl
  owner := rfl
  renewalState := rfl
  renewalChanged := rfl
  touched := fun _ member => .inr (List.mem_of_mem_erase member)
  published := .inl rfl
  active := .inr rfl

theorem stirred_publishedAt (now : Nat) (domain : Domain) :
    Stirred now domain (Domain.publishedAt now domain) where
  id := rfl
  owner := rfl
  renewalState := rfl
  renewalChanged := rfl
  touched := fun _ member => .inr member
  published := .inl rfl
  active := .inr rfl

/-- Where a row comes from that is there after an occurrence. -/
inductive Comes (s : State) (now : Nat) : Event → Domain → Prop
  | kept {event : Event} {row : Domain} (member : row ∈ s.domains)
      (quiet : event.stirs row.id = false) (same : (perform s now event).lastExecution =
        s.lastExecution) : Comes s now event row
  | created (name : Text) (owner : Nat) (isLocallyRegistrable : Bool) :
      Comes s now (.createDomain name owner isLocallyRegistrable)
        (newDomain s.nextId name owner now isLocallyRegistrable)
  | stirred {event : Event} {domain row : Domain} (member : domain ∈ s.domains)
      (change : Stirred now domain row) (same : (perform s now event).lastExecution =
        s.lastExecution) : Comes s now event row
  | renewed {domain : Domain} (member : domain ∈ s.domains) :
      Comes s now (.renew domain.id) (Domain.redeemed now domain)
  | examined {inactive : List Nat} {domain : Domain} (member : domain ∈ s.domains)
      (spared : expired (isActive inactive) now (freshDays + noticeDaysNotify)
        (domain.warned (isActive inactive) now) = false) :
      Comes s now (.scavenge inactive) (domain.warned (isActive inactive) now)

private theorem comes_of_mem_updated {s : State} {now id : Nat} {event : Event}
    {change : Domain → Domain} {row : Domain} (member : row ∈ updated id change s.domains)
    (quiet : ∀ other, other ≠ id → event.stirs other = false)
    (same : (perform s now event).lastExecution = s.lastExecution)
    (changed : ∀ domain ∈ s.domains, domain.id = id → Comes s now event (change domain)) :
    Comes s now event row := by
  obtain ⟨domain, there, rfl⟩ := List.mem_map.mp member
  by_cases concerned : domain.id = id
  · rw [if_pos concerned]
    exact changed domain there concerned
  · rw [if_neg concerned]
    exact .kept there (quiet _ concerned) same

private theorem comes_of_mem_perform {s : State} {now : Nat} {event : Event} {row : Domain}
    (member : row ∈ (perform s now event).domains) : Comes s now event row := by
  cases event with
  | createDomain name owner isLocallyRegistrable =>
    rcases List.mem_append.mp member with old | new
    · exact .kept old rfl rfl
    · rw [List.mem_singleton.mp new]
      exact .created name owner isLocallyRegistrable
  | writeRRset id replaced =>
    refine comes_of_mem_updated member ?_ rfl fun domain there _ =>
      .stirred there (stirred_written now replaced domain) rfl
    intro other different
    exact decide_eq_false different.symm
  | deleteRRset id touched =>
    refine comes_of_mem_updated member ?_ rfl fun domain there _ =>
      .stirred there (stirred_unwritten now touched domain) rfl
    intro other different
    exact decide_eq_false different.symm
  | publish id =>
    refine comes_of_mem_updated member ?_ rfl fun domain there _ =>
      .stirred there (stirred_publishedAt now domain) rfl
    intro other different
    exact decide_eq_false different.symm
  | renew id =>
    refine comes_of_mem_updated member ?_ rfl ?_
    · intro other different
      exact decide_eq_false different.symm
    · intro domain there concerned
      exact concerned ▸ .renewed there
  | deleteDomain id => exact .kept (List.mem_of_mem_filter member) rfl rfl
  | scavenge inactive =>
    have rows : row ∈ (handle (isActive inactive) now s.domains).1 := member
    rw [handle_fst, List.mem_filter, List.mem_map] at rows
    obtain ⟨⟨domain, there, rfl⟩, spared⟩ := rows
    exact .examined there (by simpa using spared)

end Rows

section Bounds

/-- No time in a row is later than the clock. -/
structure Bounded (clock : Nat) (domain : Domain) : Prop where
  renewalChanged : domain.renewalChanged ≤ clock
  touched : ∀ time ∈ domain.touched, time ≤ clock
  published : ∀ time, domain.published = some time → time ≤ clock

theorem Bounded.mono {clock later : Nat} {domain : Domain} (bounded : Bounded clock domain)
    (le : clock ≤ later) : Bounded later domain where
  renewalChanged := bounded.renewalChanged.trans le
  touched := fun time member => (bounded.touched time member).trans le
  published := fun time there => (bounded.published time there).trans le

theorem Bounded.lastActive_le {clock lastActive : Nat} {domain : Domain}
    (bounded : Bounded clock domain) (last : domain.lastActive = some lastActive) :
    lastActive ≤ clock :=
  Scavenge.lastActive_le bounded.touched bounded.published last

theorem Stirred.bounded {now : Nat} {domain row : Domain} (change : Stirred now domain row)
    (bounded : Bounded now domain) : Bounded now row where
  renewalChanged := change.renewalChanged ▸ bounded.renewalChanged
  touched := by
    intro time member
    rcases change.touched time member with same | old
    · exact same.le
    · exact bounded.touched time old
  published := by
    intro time there
    rcases change.published with new | old
    · rw [new] at there
      exact (Option.some.inj there).ge
    · exact bounded.published time (old ▸ there)

private theorem Stirred.lastActive {now : Nat} {domain row : Domain}
    (change : Stirred now domain row) :
    ∃ lastActive, row.lastActive = some lastActive ∧ now ≤ lastActive := by
  rcases change.active with touched | published
  · exact lastActive_of_touched touched
  · exact lastActive_of_published published

private theorem warned_activity (active : Nat → Bool) (now : Nat) (domain : Domain) :
    (domain.warned active now).touched = domain.touched ∧
      (domain.warned active now).published = domain.published ∧
      (domain.warned active now).owner = domain.owner := by
  have renewed : (domain.renewed active now).touched = domain.touched ∧
      (domain.renewed active now).published = domain.published ∧
      (domain.renewed active now).owner = domain.owner := by
    rw [Domain.renewed]
    split <;> exact ⟨rfl, rfl, rfl⟩
  have advanced : ∀ (state : RenewalState) (days : Nat) (row : Domain),
      (row.advanced active now state days).touched = row.touched ∧
        (row.advanced active now state days).published = row.published ∧
        (row.advanced active now state days).owner = row.owner := by
    intro state days row
    rw [Domain.advanced]
    split <;> exact ⟨rfl, rfl, rfl⟩
  rw [Domain.warned]
  obtain ⟨first, second, third⟩ := advanced .notified (noticeDaysNotify - noticeDaysWarn)
    ((domain.renewed active now).advanced active now .fresh freshDays)
  obtain ⟨fourth, fifth, sixth⟩ := advanced .fresh freshDays (domain.renewed active now)
  exact ⟨first.trans (fourth.trans renewed.1), second.trans (fifth.trans renewed.2.1),
    third.trans (sixth.trans renewed.2.2)⟩

private theorem Bounded.warned {active : Nat → Bool} {now : Nat} {domain : Domain}
    (bounded : Bounded now domain) : Bounded now (domain.warned active now) := by
  obtain ⟨touched, published, _⟩ := warned_activity active now domain
  refine ⟨?_, touched ▸ bounded.touched, published ▸ bounded.published⟩
  rcases warned_cases active now domain with
    ⟨_, shape⟩ | ⟨recent, shape, _⟩ | ⟨_, _, shape⟩ | ⟨_, shape⟩
  · rw [shape]
  · rw [shape, Domain.renewed, if_pos recent]
    cases last : domain.lastActive with
    | none => exact bounded.renewalChanged
    | some lastActive => exact bounded.lastActive_le last
  · rw [shape]
  · rw [shape]
    exact bounded.renewalChanged

/-- The rows and the last execution are in the past. -/
structure Past (s : State) : Prop where
  rows : ∀ domain ∈ s.domains, Bounded s.clock domain
  execution : ∀ last, s.lastExecution = some last → last ≤ s.clock

private theorem clock_perform (s : State) (now : Nat) (event : Event) :
    (perform s now event).clock = now := by
  cases event <;> rfl

private theorem lastExecution_perform (s : State) (now : Nat) (event : Event) :
    (perform s now event).lastExecution = s.lastExecution ∨
      (perform s now event).lastExecution = some now := by
  cases event with
  | scavenge => exact .inr rfl
  | _ => exact .inl rfl

private theorem past_step {s s' : State} {o : Occurrence} (past : Past s)
    (taken : step s o = some s') :
    Past s' := by
  obtain ⟨admitted, rfl⟩ := step_eq_some_iff.mp taken
  have le := le_of_admissible admitted
  constructor
  · intro row member
    rw [clock_perform]
    have source := comes_of_mem_perform member
    revert source
    generalize o.event = event
    intro source
    cases source with
    | kept there => exact (past.rows row there).mono le
    | created => exact ⟨le_rfl, fun _ member => absurd member List.not_mem_nil, nofun⟩
    | stirred there change => exact change.bounded ((past.rows _ there).mono le)
    | renewed there =>
      have before := (past.rows _ there).mono le
      exact ⟨le_rfl, before.touched, before.published⟩
    | examined there => exact ((past.rows _ there).mono le).warned
  · intro last execution
    rw [clock_perform]
    rcases lastExecution_perform s o.time o.event with same | new
    · exact (past.execution last (same ▸ execution)).trans le
    · rw [new] at execution
      exact (Option.some.inj execution).ge

private theorem past_run {past : List Occurrence} {s : State}
    (run : past.foldlM step initial = some s) : Past s := by
  refine Library.Runs.foldlM_preserves (fun _ _ _ => past_step) ⟨?_, ?_⟩ run
  · exact fun _ member => absurd member List.not_mem_nil
  · intro last never
    cases never

end Bounds

section Notices

/-- The notices that a row owes its renewal state to: the time of the first one, and what has
happened since. -/
inductive Noticed : List Occurrence → Domain → Nat → List Occurrence → Prop
  | notified {before mid : List Occurrence} {n : Nat} {early : List Nat} {domain : Domain}
      (state : domain.renewalState = .notified) (changed : domain.renewalChanged = n)
      (first : WentTo .notified before n early domain.id (FreshOnRecord n)) :
      Noticed (before ++ ⟨n, .scavenge early⟩ :: mid) domain n mid
  | warned {before mid after : List Occurrence} {n w : Nat} {early late : List Nat}
      {domain : Domain} (state : domain.renewalState = .warned)
      (changed : domain.renewalChanged = w)
      (first : WentTo .notified before n early domain.id (FreshOnRecord n))
      (second : WentTo .warned (before ++ ⟨n, .scavenge early⟩ :: mid) w late domain.id
        fun row => row.renewalState = .notified)
      (apart : date n + 21 ≤ date w) :
      Noticed (before ++ ⟨n, .scavenge early⟩ :: (mid ++ ⟨w, .scavenge late⟩ :: after)) domain n
        (mid ++ ⟨w, .scavenge late⟩ :: after)

private theorem Noticed.snoc {past since : List Occurrence} {domain row : Domain} {n : Nat}
    (noticed : Noticed past domain n since) (o : Occurrence) (id : row.id = domain.id)
    (state : row.renewalState = domain.renewalState)
    (changed : row.renewalChanged = domain.renewalChanged) :
    Noticed (past ++ [o]) row n (since ++ [o]) := by
  cases noticed with
  | notified here at_ first =>
    rw [List.append_assoc, List.cons_append]
    exact .notified (state.trans here) (changed.trans at_) (id ▸ first)
  | warned here at_ first second apart =>
    rw [List.append_assoc, List.cons_append, List.append_assoc, List.cons_append]
    exact .warned (state.trans here) (changed.trans at_) (id ▸ first) (id ▸ second) apart

def Waiting (domain : Domain) : Prop :=
  domain.renewalState = .notified ∨ domain.renewalState = .warned

/-- The history of a row that waits for its deletion. Either an execution has yet to see its last
activity, or nothing has stirred it since the first notice. -/
def Accounted (past : List Occurrence) (s : State) (domain : Domain) : Prop :=
  Waiting domain → ∃ n since last, Noticed past domain n since ∧ s.lastExecution = some last ∧
    domain.renewalChanged ≤ last ∧ n ≤ last ∧
    ((∃ lastActive, domain.lastActive = some lastActive ∧ last < lastActive) ∨
      (Quiet since domain.id ∧ ∀ lastActive, domain.lastActive = some lastActive → lastActive ≤ n))

private theorem recentlyActive_of_unseen {active : Nat → Bool} {now last lastActive : Nat}
    {domain : Domain} (base : inBaseQueryset active domain = true)
    (activity : domain.lastActive = some lastActive) (unseen : last < lastActive)
    (changed : domain.renewalChanged ≤ last) (soon : now < last + 183 * day) :
    recentlyActive active now domain = true := by
  have close : date now ≤ date lastActive + freshDays := by
    have shifted : date (lastActive + freshDays * day) = date lastActive + freshDays :=
      Nat.add_mul_div_right _ _ (by decide)
    rw [← shifted]
    apply date_le_date
    have same : freshDays * day = 183 * day := rfl
    omega
  have later : domain.renewalChanged < lastActive := by omega
  simp [recentlyActive, base, activity, close, later]

private theorem freshOnRecord_of_due {active : Nat → Bool} {now : Nat} {domain : Domain}
    (due : expiryCandidate active now .fresh freshDays (domain.renewed active now) = true) :
    FreshOnRecord now (domain.renewed active now) := by
  simp only [expiryCandidate, Bool.and_eq_true, decide_eq_true_eq] at due
  obtain ⟨⟨base, state⟩, old⟩ := due
  refine ⟨state, old, ?_⟩
  intro lastActive last
  by_cases recent : recentlyActive active now domain = true
  · -- The renewal has recorded the last activity.
    rw [Domain.renewed, if_pos recent] at old last
    have recorded : domain.lastActive = some lastActive := last
    rw [recorded] at old
    exact old
  · have same : domain.renewed active now = domain := by rw [Domain.renewed, if_neg recent]
    rw [same] at base old last
    by_cases seen : lastActive ≤ domain.renewalChanged
    · exact (Nat.add_le_add_right (date_le_date seen) _).trans old
    · rw [recentlyActive, base, last] at recent
      have later : domain.renewalChanged < lastActive := by omega
      have far : ¬ date now ≤ date lastActive + freshDays := by
        intro close
        simp [close, later] at recent
      simp only [freshDays] at far
      omega

private theorem quiet_snoc {since : List Occurrence} {id : Nat} (quiet : Quiet since id)
    {o : Occurrence}
    (silent : o.event.stirs id = false) : Quiet (since ++ [o]) id := by
  intro other member
  rcases List.mem_append.mp member with old | new
  · exact quiet other old
  · rw [List.mem_singleton.mp new]
    exact silent

private theorem accounted_of_kept {past : List Occurrence} {s s' : State} {domain : Domain}
    (accounted : Accounted past s domain) (o : Occurrence)
    (same : s'.lastExecution = s.lastExecution) (silent : o.event.stirs domain.id = false) :
    Accounted (past ++ [o]) s' domain := by
  intro waiting
  obtain ⟨n, since, last, noticed, execution, changed, before, activity⟩ := accounted waiting
  refine ⟨n, since ++ [o], last, noticed.snoc o rfl rfl rfl, same.trans execution, changed,
    before, ?_⟩
  rcases activity with unseen | ⟨quiet, old⟩
  · exact .inl unseen
  · exact .inr ⟨quiet_snoc quiet silent, old⟩

private theorem accounted_of_stirred {past : List Occurrence} {s s' : State} {domain row : Domain}
    (accounted : Accounted past s domain) {o : Occurrence} (change : Stirred o.time domain row)
    (same : s'.lastExecution = s.lastExecution)
    (later : ∀ last, s.lastExecution = some last → last < o.time) :
    Accounted (past ++ [o]) s' row := by
  intro waiting
  have waited : Waiting domain := by
    rw [Waiting, ← change.renewalState]
    exact waiting
  obtain ⟨n, since, last, noticed, execution, changed, before, _⟩ := accounted waited
  obtain ⟨lastActive, activity, le⟩ := change.lastActive
  refine ⟨n, since ++ [o], last,
    noticed.snoc o change.id change.renewalState change.renewalChanged, same.trans execution,
    change.renewalChanged ▸ changed, before, .inl ⟨lastActive, activity, ?_⟩⟩
  exact (later last execution).trans_le le

section Execution

variable {past : List Occurrence} {s s' : State} {now : Nat} {inactive : List Nat}
  {domain : Domain}

/-- A row that the execution does not renew has seen no activity since the first notice. -/
theorem quiet_of_overlooked (admitted : admissible s ⟨now, .scavenge inactive⟩ = true)
    (accounted : Accounted past s domain) (waiting : Waiting domain)
    (base : inBaseQueryset (isActive inactive) domain = true)
    (overlooked : recentlyActive (isActive inactive) now domain = false) :
    ∃ n since, Noticed past domain n since ∧ n < now ∧ domain.renewalChanged < now ∧
      Quiet since domain.id ∧
      ∀ lastActive, domain.lastActive = some lastActive → lastActive ≤ n := by
  obtain ⟨n, since, last, noticed, execution, changed, before, activity⟩ := accounted waiting
  have later := lt_of_admissible admitted execution
  have soon := (execution_bounds admitted).2 last execution
  rcases activity with ⟨lastActive, activity, unseen⟩ | ⟨quiet, old⟩
  · rw [recentlyActive_of_unseen base activity unseen changed soon] at overlooked
    cases overlooked
  · exact ⟨n, since, noticed, before.trans_lt later, changed.trans_lt later, quiet, old⟩

private theorem mem_emails (queued : domain.id ∈ (handle (isActive inactive) now s.domains).2) :
    (now, domain.id) ∈ (perform s now (.scavenge inactive)).emails :=
  List.mem_append_right _ (List.mem_map_of_mem queued)

private theorem mem_of_spared (member : domain ∈ s.domains)
    (spared : expired (isActive inactive) now (freshDays + noticeDaysNotify)
      (domain.warned (isActive inactive) now) = false) :
    domain.warned (isActive inactive) now ∈ (perform s now (.scavenge inactive)).domains := by
  show _ ∈ (handle (isActive inactive) now s.domains).1
  rw [handle_fst, List.mem_filter]
  exact ⟨List.mem_map_of_mem member, by simp [spared]⟩

private theorem accounted_of_examined (run : past.foldlM step initial = some s)
    (taken : step s ⟨now, .scavenge inactive⟩ = some s') (member : domain ∈ s.domains)
    (accounted : Accounted past s domain) (active : isActive inactive domain.owner = true)
    (spared : expired (isActive inactive) now (freshDays + noticeDaysNotify)
      (domain.warned (isActive inactive) now) = false) :
    Accounted (past ++ [⟨now, .scavenge inactive⟩]) s'
      (domain.warned (isActive inactive) now) := by
  obtain ⟨admitted, rfl⟩ := step_eq_some_iff.mp taken
  have there := mem_of_spared member spared
  have earlier : ∀ lastActive, domain.lastActive = some lastActive → lastActive ≤ now :=
    fun _ last => (((past_run run).rows domain member).mono
      (le_of_admissible admitted)).lastActive_le last
  intro waiting
  rcases warned_cases (isActive inactive) now domain with
    ⟨due, shape⟩ | ⟨_, shape, fresh⟩ | ⟨overlooked, due, shape⟩ | ⟨overlooked, shape⟩
  · -- The first notice.
    have queued := mem_emails (s := s) ((mem_handle_snd_iff _ _).mpr
      ⟨domain, member, rfl, .inl due⟩)
    have state : (domain.warned (isActive inactive) now).renewalState = .notified := by rw [shape]
    have changed : (domain.warned (isActive inactive) now).renewalChanged = now := by rw [shape]
    have first : WentTo .notified past now inactive (domain.warned (isActive inactive) now).id
        (FreshOnRecord now) := by
      rw [warned_id]
      exact ⟨s, _, domain, _, run, taken, member, rfl, freshOnRecord_of_due due, there,
        warned_id _ _ _, state, queued⟩
    refine ⟨now, [], now, .notified state changed first, rfl, changed.le, le_rfl, .inr ⟨?_, ?_⟩⟩
    · exact fun _ none => absurd none List.not_mem_nil
    · rw [lastActive_warned]
      exact earlier
  · rw [Waiting, shape, fresh] at waiting
    rcases waiting with never | never <;> cases never
  · -- The second notice.
    have candidate := due
    simp only [expiryCandidate, Bool.and_eq_true, decide_eq_true_eq] at due
    obtain ⟨⟨base, state⟩, old⟩ := due
    obtain ⟨n, since, noticed, before, _, quiet, inactivity⟩ :=
      quiet_of_overlooked admitted accounted (.inl state) base overlooked
    cases noticed with
    | warned other => rw [state] at other; cases other
    | notified _ changed first =>
      have same : domain.renewed (isActive inactive) now = domain := by
        rw [Domain.renewed, overlooked]
        rfl
      have kept : domain.advanced (isActive inactive) now .fresh freshDays = domain := by
        rw [Domain.advanced, if_neg]
        simp [expiryCandidate, state]
      have queued := mem_emails (s := s) ((mem_handle_snd_iff _ _).mpr
        ⟨domain, member, rfl, .inr (by rw [same, kept]; exact candidate)⟩)
      have state' : (domain.warned (isActive inactive) now).renewalState = .warned := by rw [shape]
      have changed' : (domain.warned (isActive inactive) now).renewalChanged = now := by
        rw [shape]
      have apart : date n + 21 ≤ date now := by
        rw [← changed]
        exact old
      rw [List.append_assoc, List.cons_append]
      refine ⟨n, _, now, .warned state' changed' ?_ ?_ apart, rfl, changed'.le, before.le,
        .inr ⟨?_, ?_⟩⟩
      · rw [warned_id]
        exact first
      · rw [warned_id]
        exact ⟨s, _, domain, _, run, taken, member, rfl, by rw [same]; exact state, there,
          warned_id _ _ _, state', queued⟩
      · rw [warned_id]
        exact quiet_snoc quiet rfl
      · rw [lastActive_warned]
        exact inactivity
  · -- Nothing happens to the row.
    rw [shape] at waiting ⊢
    have base : inBaseQueryset (isActive inactive) domain = true := by
      rw [inBaseQueryset, active, Bool.and_true, decide_eq_true_eq]
      intro immortal
      rw [Waiting, immortal] at waiting
      rcases waiting with never | never <;> cases never
    obtain ⟨n, since, noticed, before, changed, quiet, inactivity⟩ :=
      quiet_of_overlooked admitted accounted waiting base overlooked
    exact ⟨n, _, now, noticed.snoc _ rfl rfl rfl, rfl, changed.le, before.le,
      .inr ⟨quiet_snoc quiet rfl, inactivity⟩⟩

end Execution

end Notices

section Runs

/-- A step keeps the rows of active owners accounted for. -/
theorem accounted_step {past : List Occurrence} {s s' : State} {o : Occurrence} {row : Domain}
    (run : past.foldlM step initial = some s) (taken : step s o = some s')
    (accounted : ∀ domain ∈ s.domains, OwnerActive past domain.owner → Accounted past s domain)
    (member : row ∈ s'.domains) (active : OwnerActive (past ++ [o]) row.owner) :
    Accounted (past ++ [o]) s' row := by
  obtain ⟨admitted, rfl⟩ := step_eq_some_iff.mp taken
  have before : OwnerActive past row.owner := fun other there =>
    active other (List.mem_append_left _ there)
  have now := active o (List.mem_append_right _ (List.mem_singleton_self o))
  obtain ⟨time, event⟩ := o
  have source := comes_of_mem_perform member
  cases source with
  | kept there silent same => exact accounted_of_kept (accounted row there before) _ same silent
  | created name owner isLocallyRegistrable =>
    intro waiting
    cases isLocallyRegistrable <;> rcases waiting with never | never <;> cases never
  | stirred there change same =>
    exact accounted_of_stirred (accounted _ there (change.owner ▸ before)) change same
      fun _ execution => lt_of_admissible admitted execution
  | renewed there =>
    intro waiting
    rcases waiting with never | never <;> cases never
  | @examined inactive domain there spared =>
    have owner := (warned_activity (isActive inactive) time domain).2.2
    rw [owner] at before now
    exact accounted_of_examined run taken there (accounted domain there before)
      (now inactive rfl) spared

private theorem accounted_run {past : List Occurrence} {s : State}
    (run : past.foldlM step initial = some s) :
    ∀ domain ∈ s.domains, OwnerActive past domain.owner → Accounted past s domain := by
  refine foldlM_history (P := fun past s => ∀ domain ∈ s.domains,
    OwnerActive past domain.owner → Accounted past s domain) ?_ ?_ run
  · exact fun _ member => absurd member List.not_mem_nil
  · exact fun _ _ _ _ run accounted taken row member active =>
      accounted_step run taken accounted member active

/-- A row that an execution deletes is WARNED for a week, and has been inactive for 211 days. -/
theorem expired_of_missing {s : State} {now : Nat} {inactive : List Nat} {domain : Domain}
    (member : domain ∈ s.domains)
    (missing : domain.id ∉ (perform s now (.scavenge inactive)).domains.map Domain.id) :
    domain.renewalState = .warned ∧ inBaseQueryset (isActive inactive) domain = true ∧
      recentlyActive (isActive inactive) now domain = false ∧
      date domain.renewalChanged + 7 ≤ date now ∧
      ∃ lastActive, domain.lastActive = some lastActive ∧ date lastActive + 211 ≤ date now := by
  have due : expired (isActive inactive) now (freshDays + noticeDaysNotify)
      (domain.warned (isActive inactive) now) = true := by
    by_contra spared
    refine missing (List.mem_map.mpr ⟨_, mem_of_spared member ?_, warned_id _ _ _⟩)
    exact Bool.eq_false_of_not_eq_true spared
  simp only [expired, Bool.and_eq_true, decide_eq_true_eq, Option.any_eq_true] at due
  obtain ⟨⟨⟨base, state⟩, changed⟩, lastActive, last, old⟩ := due
  rw [lastActive_warned] at last
  rcases warned_cases (isActive inactive) now domain with
    ⟨_, shape⟩ | ⟨_, shape, fresh⟩ | ⟨_, _, shape⟩ | ⟨overlooked, shape⟩
  · rw [shape] at state
    cases state
  · rw [shape, fresh] at state
    cases state
  · -- The second notice is not a week old yet.
    rw [shape] at changed
    simp only [noticeDaysWarn] at changed
    omega
  · rw [shape] at base state changed
    exact ⟨state, base, overlooked, changed, lastActive, last, old⟩

/-- A domain is scavenged after both notices, and after inactivity since the first one. -/
theorem scavenged_after_notices {past : List Occurrence} {s s' : State} {r : Nat}
    {inactive : List Nat} {domain : Domain} (run : past.foldlM step initial = some s)
    (taken : step s ⟨r, .scavenge inactive⟩ = some s')
    (active : OwnerActive (past ++ [⟨r, .scavenge inactive⟩]) domain.owner)
    (member : domain ∈ s.domains) (missing : domain.id ∉ s'.domains.map Domain.id) :
    TwiceNoticed (fun _ n row => FreshOnRecord n row) past r domain.id ∧
      ∃ lastActive, domain.lastActive = some lastActive ∧ date lastActive + 211 ≤ date r := by
  obtain ⟨admitted, rfl⟩ := step_eq_some_iff.mp taken
  obtain ⟨state, base, overlooked, week, inactivity⟩ := expired_of_missing member missing
  refine ⟨?_, inactivity⟩
  have accounted := accounted_run run domain member fun other there =>
    active other (List.mem_append_left _ there)
  obtain ⟨n, since, noticed, _, _, quiet, _⟩ :=
    quiet_of_overlooked admitted accounted (.inr state) base overlooked
  cases noticed with
  | notified other => rw [state] at other; cases other
  | @warned before mid after _ w early late _ _ changed first second apart =>
    refine ⟨before, n, early, mid, w, late, after, rfl, first, second, apart,
      changed ▸ week, ?_⟩
    intro o there
    rcases List.mem_append.mp there with old | new
    · exact quiet o (List.mem_append_left _ old)
    · exact quiet o (List.mem_append_right _ (List.mem_cons_of_mem _ new))

end Runs

section Examples

/-- A domain is created and gets an RRset; it is notified, active the day after, and renewed; then
nothing stirs it. -/
def abandoned : List Occurrence :=
  [⟨1 * day, .createDomain "a.dedyn.io".toList 1 true⟩, ⟨1 * day, .writeRRset 0 none⟩,
    ⟨184 * day, .scavenge []⟩, ⟨185 * day, .writeRRset 0 (some (1 * day))⟩,
    ⟨300 * day, .scavenge []⟩, ⟨368 * day, .scavenge []⟩, ⟨389 * day, .scavenge []⟩]

/-- The row that the execution on day 396 deletes. -/
def abandonedRow : Domain :=
  ⟨0, "a.dedyn.io".toList, 1, .warned, 389 * day, [185 * day], none⟩

def abandonedState : State :=
  ⟨[abandonedRow], 1, 389 * day, some (389 * day),
    [(184 * day, 0), (368 * day, 0), (389 * day, 0)]⟩

private theorem abandoned_run : abandoned.foldlM step initial = some abandonedState := by
  rfl

private theorem abandoned_deleted : step abandonedState ⟨396 * day, .scavenge []⟩ =
    some { abandonedState with
      domains := [], clock := 396 * day, lastExecution := some (396 * day) } := by
  rfl

private theorem abandoned_active : OwnerActive (abandoned ++ [⟨396 * day, .scavenge []⟩]) 1 := by
  intro o member inactive found
  simp only [abandoned, List.cons_append, List.nil_append, List.mem_cons, List.not_mem_nil,
    or_false] at member
  rcases member with rfl | rfl | rfl | rfl | rfl | rfl | rfl | rfl <;> cases found <;> rfl

theorem abandoned_after_notices :
    TwiceNoticed (fun _ n row => FreshOnRecord n row) abandoned (396 * day) 0 ∧
      ∃ lastActive, abandonedRow.lastActive = some lastActive ∧
        date lastActive + 211 ≤ date (396 * day) :=
  scavenged_after_notices abandoned_run abandoned_deleted abandoned_active
    (List.mem_singleton_self _) List.not_mem_nil

private theorem not_freshThroughout {before after : List Occurrence} {n : Nat}
    (split : before = abandoned.take 4 ++ after)
    (close : ∀ o ∈ after.head?, date n < date o.time + 183) : ¬ FreshThroughout before n 0 := by
  intro fresh
  have reached : (abandoned.take 4).foldlM step initial = some
      { domains := [⟨0, "a.dedyn.io".toList, 1, .notified, 184 * day, [185 * day], none⟩]
        nextId := 1
        clock := 185 * day
        lastExecution := some (184 * day)
        emails := [(184 * day, 0)] } := rfl
  obtain ⟨domain, member, _, state⟩ := fresh _ after _ split close reached
  rw [List.mem_singleton.mp member] at state
  cases state

/-- The domain was scavenged, and had been FRESH for 68 days only when it was notified. -/
theorem scavenged_not_freshThroughout :
    abandoned.foldlM step initial = some abandonedState ∧
      (∃ s', step abandonedState ⟨396 * day, .scavenge []⟩ = some s' ∧
        OwnerActive (abandoned ++ [⟨396 * day, .scavenge []⟩]) abandonedRow.owner ∧
        abandonedRow ∈ abandonedState.domains ∧ 0 ∉ s'.domains.map Domain.id) ∧
      ¬ TwiceNoticed (fun past n row => FreshThroughout past n row.id) abandoned (396 * day) 0 := by
  refine ⟨abandoned_run, ⟨_, abandoned_deleted, abandoned_active, List.mem_singleton_self _,
    List.not_mem_nil⟩, ?_⟩
  rintro ⟨before, n, early, mid, w, late, after, split, notified, _, _, _, quiet⟩
  obtain ⟨_, _, row, _, _, _, _, same, fresh, _⟩ := notified
  have same : (row.renewed (isActive early) n).id = 0 := by rw [renewed_id, same]
  rw [same] at fresh
  have here : abandoned[before.length]? = some ⟨n, .scavenge early⟩ := by simp [split]
  have past : before = abandoned.take before.length := by simp [split]
  have rest : mid ++ ⟨w, .scavenge late⟩ :: after = abandoned.drop (before.length + 1) := by
    simp [split]
  have bound : before.length < 7 := (List.getElem?_eq_some_iff.mp here).1
  generalize before.length = position at here past rest bound
  interval_cases position
  · cases here
  · cases here
  · -- The activity on day 185 stirs the domain.
    cases here
    have member : (⟨185 * day, .writeRRset 0 (some (1 * day))⟩ : Occurrence) ∈
        mid ++ ⟨w, .scavenge late⟩ :: after := rest ▸ List.mem_cons_self ..
    have stirring : (⟨185 * day, .writeRRset 0 (some (1 * day))⟩ : Occurrence) ∈ mid ++ after := by
      simpa using member
    exact Bool.noConfusion (quiet _ stirring)
  · cases here
  · cases here
    exact @not_freshThroughout _ [] _ past nofun fresh
  · cases here
    refine @not_freshThroughout _ [⟨300 * day, .scavenge []⟩] _ past ?_ fresh
    intro o head
    cases head
    decide
  · cases here
    refine @not_freshThroughout _ [⟨300 * day, .scavenge []⟩, ⟨368 * day, .scavenge []⟩] _ past ?_
      fresh
    intro o head
    cases head
    decide

end Examples

end DesecStack.Domains.Renewal
