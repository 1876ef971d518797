/- module: DesecStack/Domains/Scavenge
   source: api/desecapi/management/commands/scavenge-unused.py, api/desecapi/models/domains.py
   digest: The renewal of domains and the command that scavenges unused ones. -/

import DesecStack.Library.PyText

set_option autoImplicit false
set_option relaxedAutoImplicit false

namespace DesecStack.Domains.Scavenge

open Library.PyText (Text)

/-- `Domain.RenewalState` -/
inductive RenewalState where
  | immortal
  | fresh
  | notified
  | warned
  deriving DecidableEq

/-- A domain row, with the `touched` column of its RRsets. Times are in microseconds. -/
structure Domain where
  id : Nat
  name : Text
  owner : Nat
  renewalState : RenewalState
  renewalChanged : Nat
  touched : List Nat
  published : Option Nat
  deriving DecidableEq

/-- The length of a day. -/
def day : Nat := 86400000000

/-- `__date` and `localdate`, in days. -/
def date (time : Nat) : Nat := time / day

/-- `Greatest(_max_touched, "published")`, which leaves nulls out. -/
def Domain.lastActive (domain : Domain) : Option Nat :=
  match domain.touched.max?, domain.published with
  | some touched, some published => some (max touched published)
  | some touched, none => some touched
  | none, published => published

def freshDays : Nat := 183

def noticeDaysNotify : Nat := 28

def noticeDaysWarn : Nat := 7

/-- `renewal_state += 1`, where it is taken. -/
def RenewalState.next : RenewalState → RenewalState
  | .immortal => .fresh
  | .fresh => .notified
  | .notified => .warned
  | .warned => .warned

section Queries

variable (active : Nat → Bool) (now : Nat)

/-- `base_queryset`: the domains of active users that are not immortal. -/
def inBaseQueryset (domain : Domain) : Bool :=
  domain.renewalState ≠ .immortal && active domain.owner

/-- The filter of `renew_touched_domains`. -/
def recentlyActive (domain : Domain) : Bool :=
  inBaseQueryset active domain && domain.lastActive.any fun lastActive =>
    date now ≤ date lastActive + freshDays && domain.renewalChanged < lastActive

/-- `renew_touched_domains` -/
def renewTouchedDomains (domains : List Domain) : List Domain :=
  domains.map fun domain =>
    if recentlyActive active now domain then
      { domain with
        renewalState := .fresh
        renewalChanged := domain.lastActive.getD domain.renewalChanged }
    else domain

/-- The filter of `warn_domain_deletion`. -/
def expiryCandidate (renewalState : RenewalState) (inactiveDays : Nat) (domain : Domain) : Bool :=
  inBaseQueryset active domain && domain.renewalState = renewalState &&
    date domain.renewalChanged + inactiveDays ≤ date now

/-- `warn_domain_deletion`: the domains afterwards, and those that an email is queued for. -/
def warnDomainDeletion (renewalState : RenewalState) (inactiveDays : Nat)
    (domains : List Domain) : List Domain × List Nat :=
  (domains.map fun domain =>
      if expiryCandidate active now renewalState inactiveDays domain then
        { domain with renewalState := domain.renewalState.next, renewalChanged := now }
      else domain,
    (domains.filter (expiryCandidate active now renewalState inactiveDays)).map Domain.id)

/-- The filter of `delete_domains`. -/
def expired (inactiveDays : Nat) (domain : Domain) : Bool :=
  inBaseQueryset active domain && domain.renewalState = .warned &&
    date domain.renewalChanged + noticeDaysWarn ≤ date now &&
    domain.lastActive.any fun lastActive => date lastActive + inactiveDays ≤ date now

/-- `delete_domains` -/
def deleteDomains (inactiveDays : Nat) (domains : List Domain) : List Domain :=
  domains.filter fun domain => !expired active now inactiveDays domain

/-- `handle`: the domains afterwards, and those that an email is queued for. -/
def handle (domains : List Domain) : List Domain × List Nat :=
  let renewed := renewTouchedDomains active now domains
  let (notified, first) := warnDomainDeletion active now .fresh freshDays renewed
  let (warned, second) := warnDomainDeletion active now .notified
    (noticeDaysNotify - noticeDaysWarn) notified
  (deleteDomains active now (freshDays + noticeDaysNotify) warned, first ++ second)

end Queries

section Rows

variable (active : Nat → Bool) (now : Nat)

/-- `renew_touched_domains`, on one row. -/
def Domain.renewed (domain : Domain) : Domain :=
  if recentlyActive active now domain then
    { domain with
      renewalState := .fresh
      renewalChanged := domain.lastActive.getD domain.renewalChanged }
  else domain

/-- `warn_domain_deletion`, on one row. -/
def Domain.advanced (renewalState : RenewalState) (inactiveDays : Nat) (domain : Domain) : Domain :=
  if expiryCandidate active now renewalState inactiveDays domain then
    { domain with renewalState := domain.renewalState.next, renewalChanged := now }
  else domain

/-- A row before `delete_domains`. -/
def Domain.warned (domain : Domain) : Domain :=
  ((domain.renewed active now).advanced active now .fresh freshDays).advanced active now .notified
    (noticeDaysNotify - noticeDaysWarn)

theorem handle_fst (domains : List Domain) :
    (handle active now domains).1 = (domains.map (Domain.warned active now)).filter fun domain =>
      !expired active now (freshDays + noticeDaysNotify) domain := by
  simp only [handle, warnDomainDeletion, renewTouchedDomains, deleteDomains, List.map_map]
  rfl

@[simp] theorem renewed_id (domain : Domain) : (domain.renewed active now).id = domain.id := by
  rw [Domain.renewed]
  split <;> rfl

@[simp] theorem advanced_id (renewalState : RenewalState) (inactiveDays : Nat) (domain : Domain) :
    (domain.advanced active now renewalState inactiveDays).id = domain.id := by
  rw [Domain.advanced]
  split <;> rfl

/-- The emails of a run go to the domains that one of the two notices is due for. -/
theorem mem_handle_snd_iff {domains : List Domain} {id : Nat} :
    id ∈ (handle active now domains).2 ↔ ∃ domain ∈ domains, domain.id = id ∧
      (expiryCandidate active now .fresh freshDays (domain.renewed active now) = true ∨
        expiryCandidate active now .notified (noticeDaysNotify - noticeDaysWarn)
          ((domain.renewed active now).advanced active now .fresh freshDays) = true) := by
  have rows : (handle active now domains).2 =
      ((domains.map (Domain.renewed active now)).filter
          (expiryCandidate active now .fresh freshDays)).map Domain.id ++
        ((domains.map fun domain =>
          (domain.renewed active now).advanced active now .fresh freshDays).filter
            (expiryCandidate active now .notified (noticeDaysNotify - noticeDaysWarn))).map
              Domain.id := by
    simp only [handle, warnDomainDeletion, renewTouchedDomains, List.map_map]
    rfl
  rw [rows]
  simp only [List.mem_append, List.mem_map, List.mem_filter]
  constructor
  · rintro (⟨_, ⟨⟨domain, member, rfl⟩, due⟩, rfl⟩ | ⟨_, ⟨⟨domain, member, rfl⟩, due⟩, rfl⟩)
    · exact ⟨domain, member, (renewed_id ..).symm, .inl due⟩
    · exact ⟨domain, member, by simp, .inr due⟩
  · rintro ⟨domain, member, rfl, due | due⟩
    · exact .inl ⟨_, ⟨⟨domain, member, rfl⟩, due⟩, renewed_id ..⟩
    · exact .inr ⟨_, ⟨⟨domain, member, rfl⟩, due⟩, by simp⟩

theorem warned_cases (domain : Domain) :
    (expiryCandidate active now .fresh freshDays (domain.renewed active now) = true ∧
      domain.warned active now = { domain.renewed active now with
        renewalState := .notified, renewalChanged := now }) ∨
    (recentlyActive active now domain = true ∧
      domain.warned active now = domain.renewed active now ∧
      (domain.renewed active now).renewalState = .fresh) ∨
    (recentlyActive active now domain = false ∧
      expiryCandidate active now .notified (noticeDaysNotify - noticeDaysWarn) domain = true ∧
      domain.warned active now = { domain with renewalState := .warned, renewalChanged := now }) ∨
    (recentlyActive active now domain = false ∧ domain.warned active now = domain) := by
  cases due : expiryCandidate active now .fresh freshDays (domain.renewed active now) with
  | true =>
    left
    have state : (domain.renewed active now).renewalState = .fresh := by
      simp only [expiryCandidate, Bool.and_eq_true, decide_eq_true_eq] at due
      exact due.1.2
    have notified : (domain.renewed active now).advanced active now .fresh freshDays =
        { domain.renewed active now with renewalState := .notified, renewalChanged := now } := by
      rw [Domain.advanced, due]
      simp [state, RenewalState.next]
    -- The second notice is not due on the day of the first one.
    have later : ¬ date now + (noticeDaysNotify - noticeDaysWarn) ≤ date now := by
      simp [noticeDaysNotify, noticeDaysWarn]
    refine ⟨rfl, ?_⟩
    rw [Domain.warned, notified, Domain.advanced, if_neg]
    intro second
    rw [expiryCandidate, Bool.and_eq_true, decide_eq_true_eq] at second
    exact later second.2
  | false =>
    right
    have kept : (domain.renewed active now).advanced active now .fresh freshDays =
        domain.renewed active now := by
      simp [Domain.advanced, due]
    cases recent : recentlyActive active now domain with
    | true =>
      have state : (domain.renewed active now).renewalState = .fresh := by
        simp [Domain.renewed, recent]
      left
      refine ⟨rfl, ?_, state⟩
      rw [Domain.warned, kept, Domain.advanced]
      simp [expiryCandidate, state]
    | false =>
      right
      have same : domain.renewed active now = domain := by simp [Domain.renewed, recent]
      rw [same] at kept
      cases second : expiryCandidate active now .notified (noticeDaysNotify - noticeDaysWarn)
          domain with
      | true =>
        have state : domain.renewalState = .notified := by
          simp only [expiryCandidate, Bool.and_eq_true, decide_eq_true_eq] at second
          exact second.1.2
        left
        refine ⟨rfl, rfl, ?_⟩
        rw [Domain.warned, same, kept, Domain.advanced, second]
        simp [state, RenewalState.next]
      | false =>
        right
        refine ⟨rfl, ?_⟩
        rw [Domain.warned, same, kept, Domain.advanced, second]
        simp

@[simp] theorem warned_id (domain : Domain) : (domain.warned active now).id = domain.id := by
  simp [Domain.warned]

theorem lastActive_warned (domain : Domain) :
    (domain.warned active now).lastActive = domain.lastActive := by
  have renewed : (domain.renewed active now).lastActive = domain.lastActive := by
    rw [Domain.renewed]
    split <;> rfl
  have advanced : ∀ (state : RenewalState) (days : Nat) (row : Domain),
      (row.advanced active now state days).lastActive = row.lastActive := by
    intro state days row
    rw [Domain.advanced]
    split <;> rfl
  rw [Domain.warned, advanced, advanced, renewed]

end Rows

section Activity

variable {domain : Domain} {time : Nat}

theorem lastActive_of_touched (member : time ∈ domain.touched) :
    ∃ lastActive, domain.lastActive = some lastActive ∧ time ≤ lastActive := by
  obtain ⟨latest, maximum⟩ := Option.isSome_iff_exists.mp
    (List.isSome_max?_of_mem member)
  have bound := (List.max?_eq_some_iff.mp maximum).2 time member
  rw [Domain.lastActive, maximum]
  cases domain.published with
  | none => exact ⟨latest, rfl, bound⟩
  | some published => exact ⟨max latest published, rfl, le_max_of_le_left bound⟩

theorem lastActive_of_published (published : domain.published = some time) :
    ∃ lastActive, domain.lastActive = some lastActive ∧ time ≤ lastActive := by
  rw [Domain.lastActive, published]
  cases domain.touched.max? with
  | none => exact ⟨time, rfl, le_rfl⟩
  | some latest => exact ⟨max latest time, rfl, le_max_right _ _⟩

theorem lastActive_le {bound lastActive : Nat} (touched : ∀ time ∈ domain.touched, time ≤ bound)
    (published : ∀ time, domain.published = some time → time ≤ bound)
    (last : domain.lastActive = some lastActive) : lastActive ≤ bound := by
  have latest : ∀ time, domain.touched.max? = some time → time ≤ bound := fun time maximum =>
    touched time (List.max?_eq_some_iff.mp maximum).1
  rw [Domain.lastActive] at last
  cases maximum : domain.touched.max? with
  | none =>
    rw [maximum] at last
    exact published lastActive last
  | some time =>
    rw [maximum] at last
    cases there : domain.published with
    | none =>
      rw [there] at last
      exact Option.some.inj last ▸ latest time maximum
    | some other =>
      rw [there] at last
      exact Option.some.inj last ▸ max_le (latest time maximum) (published other there)

theorem date_le_date {one other : Nat} (le : one ≤ other) : date one ≤ date other :=
  Nat.div_le_div_right le

end Activity

end DesecStack.Domains.Scavenge
