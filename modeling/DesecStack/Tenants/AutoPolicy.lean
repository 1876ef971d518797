/- module: DesecStack/Tenants/AutoPolicy
   layer: main results
   digest: A token with automatic policies only ever changes domains that it has created. -/

import DesecStack.Tenants.Grants

set_option autoImplicit false
set_option relaxedAutoImplicit false

namespace DesecStack.Tenants.AutoPolicy

open Library.PyText (Text)
open Changes.Models (Item value value_erase)
open Tokens.Policies
open Tokens.Priorities (canSafelyDeleteDomain_iff hasDeleteDomainPermission)
open Tokens.Store
open Tokens.Primacy
open Views.Enforced (Permits changed_of_after)
open Requests Effects Isolation Grants

/-- A token sets up policies for new domains, does not manage tokens, and may write by its policies
only to some domains, as a whole. -/
structure Confined (id : Nat) (own : Text → Prop) (tables : Tables) : Prop where
  token (token : Token) (present : token ∈ tables.tokens) (same : token.id = id) :
    token.autoPolicy = true ∧ token.permManageTokens = false
  policy (policy : TokenDomainPolicy) (present : policy ∈ tables.policies)
    (same : policy.token = id) (permissive : policy.permWrite = true) :
    ∃ name, own name ∧ policy.scope = (some name, none, none)

section Tables

variable {id : Nat} {own : Text → Prop} {tables : Tables} {token : Token}
  (confined : Confined id own tables) (sound : Sound tables)
  (present : token ∈ tables.tokens) (same : token.id = id)
include confined sound present same

private theorem restricted_of_confined : ∃ default ∈ policySet tables id,
    default.scope = (none, none, none) ∧ default.permWrite = false := by
  obtain ⟨default, there, ofToken, represents, restrictive⟩ :=
    sound.auto token present (confined.token token present same).1
  exact ⟨default, mem_policySet_iff.mpr ⟨there, ofToken.trans same⟩, of_decide_eq_true represents,
    restrictive⟩

private theorem own_of_permits {d : Text} {item : Item}
    (permits : Permits (policySet tables id) (d, item)) :
    own d := by
  obtain ⟨default, inSet, scope, -⟩ := restricted_of_confined confined sound present same
  have covered : default ∈ (policySet tables id).filter
      (TokenDomainPolicy.covers (some (d, item))) := by
    refine List.mem_filter.mpr ⟨inSet, ?_⟩
    simp only [TokenDomainPolicy.scope, Prod.mk.injEq] at scope
    simp [TokenDomainPolicy.covers, scope]
  cases found : getPolicy (policySet tables id) (some (d, item)) with
  | none =>
    rw [getPolicy, List.argmin_eq_none] at found
    rw [found] at covered
    cases covered
  | some policy =>
    have member := List.mem_filter.mp (List.argmin_mem found)
    obtain ⟨there, ofToken⟩ := mem_policySet_iff.mp member.1
    obtain ⟨name, isOwn, about⟩ := confined.policy policy there ofToken (permits policy found)
    simp only [TokenDomainPolicy.scope, Prod.mk.injEq] at about
    have covers := member.2
    simp [TokenDomainPolicy.covers, about] at covers
    exact covers ▸ isOwn

private theorem own_of_deletable {d : Text}
    (allowed : hasDeleteDomainPermission token (policySet tables id) d = true) : own d := by
  obtain ⟨default, inSet, scope, restrictive⟩ := restricted_of_confined confined sound present same
  rw [hasDeleteDomainPermission, Bool.and_eq_true] at allowed
  rcases (canSafelyDeleteDomain_iff.mp allowed.2).2 with ⟨policy, inside, about, permissive⟩ | all
  · obtain ⟨there, ofToken⟩ := mem_policySet_iff.mp inside
    obtain ⟨name, isOwn, whole⟩ := confined.policy policy there ofToken permissive
    have sameName : name = d := by simpa using (whole.symm.trans about)
    exact sameName ▸ isOwn
  · have permissive := all default inSet (congrArg Prod.fst scope)
    rw [restrictive] at permissive
    cases permissive

end Tables

section Runs

variable {id : Nat} {s : System} {events : List Event} {d : Text}

/-- In one of the events a domain was created with the token, and it has been there since. -/
def CreatedBy (id : Nat) (s : System) (events : List Event) (d : Text) : Prop :=
  ∃ n event, events[n]? = some event ∧ Creates id d event ∧ ¬ There (run s (events.take n)) d ∧
    ∀ m, n < m → m ≤ events.length → There (run s (events.take m)) d

theorem CreatedBy.append (created : CreatedBy id s events d) {event : Event}
    (there : There (run s (events ++ [event])) d) : CreatedBy id s (events ++ [event]) d := by
  obtain ⟨n, creation, found, creates, fresh, since⟩ := created
  have inside : n < events.length := (List.getElem?_eq_some_iff.mp found).1
  refine ⟨n, creation, ?_, creates, ?_, fun m later bound => ?_⟩
  · rw [List.getElem?_append_left inside, found]
  · rwa [List.take_append_of_le_length (by omega)]
  · by_cases whole : m = events.length + 1
    · rw [whole, List.take_of_length_le (by simp)]
      exact there
    · have short : m ≤ events.length := by
        rw [List.length_append, List.length_singleton] at bound
        omega
      rw [List.take_append_of_le_length short]
      exact since m later short

theorem createdBy_last {event : Event} (creates : Creates id d event)
    (fresh : ¬ There (run s events) d)
    (there : There (run s (events ++ [event])) d) : CreatedBy id s (events ++ [event]) d := by
  refine ⟨events.length, event, by simp, creates, by simpa using fresh, fun m later bound => ?_⟩
  rw [List.length_append, List.length_singleton] at bound
  have whole : m = events.length + 1 := by omega
  rw [whole, List.take_of_length_le (by simp)]
  exact there

/-- The requests that others make do not set the rights of the token. -/
def Unmanaged (id : Nat) (event : Event) : Prop :=
  Manages id event → ∃ env request, event = .request env id request

theorem consistent_run (consistent : Consistent s.tables) (events : List Event) :
    Consistent (run s events).tables := by
  induction events using List.reverseRecOn with
  | nil => exact consistent
  | append_singleton events event ih =>
    rw [run_append]
    exact consistent_step ih event

private theorem confined_step {own : Text → Prop} (consistent : Consistent s.tables)
    (confined : Confined id own s.tables) {event : Event} (unmanaged : Unmanaged id event) :
    Confined id (fun name => (own name ∨ Creates id name event ∧ ¬ There s name) ∧
      There (step s event) name) (step s event).tables := by
  have grows := grows_of_step fun manages => ⟨unmanaged manages, fun token present same =>
    (confined.token token present same).2⟩
  have linked := (consistent_step consistent event).linked
  constructor
  · intro token present same
    obtain ⟨old, there, rights⟩ := grows.token token present same
    rw [← rights.autoPolicy, ← rights.permManageTokens]
    exact confined.token old there (rights.id.trans same)
  · intro policy present same permissive
    obtain ⟨name, isOwn, scope⟩ : ∃ name, (own name ∨ Creates id name event ∧ ¬ There s name) ∧
        policy.scope = (some name, none, none) := by
      rcases grows.policy policy present same permissive with old | ⟨name, isNew, scope⟩
      · obtain ⟨name, isOwn, scope⟩ := confined.policy policy old same permissive
        exact ⟨name, .inl isOwn, scope⟩
      · exact ⟨name, .inr isNew, scope⟩
    obtain ⟨token, -, -, domains⟩ := linked.policies policy present
    exact ⟨name, ⟨isOwn, token.userId, domains name (congrArg Prod.fst scope)⟩, scope⟩

/-- In every run the token is confined to the domains that it has created. -/
theorem confined_run (consistent : Consistent s.tables)
    (start : Confined id (fun _ => False) s.tables)
    (unmanaged : ∀ event ∈ events, Unmanaged id event) :
    Confined id (CreatedBy id s events) (run s events).tables := by
  induction events using List.reverseRecOn with
  | nil =>
    refine ⟨start.token, fun policy present same permissive => ?_⟩
    obtain ⟨_, absurd', -⟩ := start.policy policy present same permissive
    exact absurd'.elim
  | append_singleton events event ih =>
    have before := ih fun other member => unmanaged other (List.mem_append_left _ member)
    have after := confined_step (consistent_run consistent events) before
      (unmanaged event (List.mem_append_right _ (List.mem_singleton_self _)))
    rw [run_append]
    refine ⟨after.token, fun policy present same permissive => ?_⟩
    obtain ⟨name, ⟨isOwn, there⟩, scope⟩ := after.policy policy present same permissive
    rw [← run_append] at there
    refine ⟨name, ?_, scope⟩
    rcases isOwn with created | ⟨creates, fresh⟩
    · exact created.append there
    · exact createdBy_last creates fresh there

end Runs

section Requests

variable {id : Nat} {own : Text → Prop} {s : System} {env : Environment} {token : Token}

theorem domains_of_write {operation : Option Operation}
    (createDomain : ∀ name auth policyId, operation ≠ some (.createDomain name auth policyId))
    (deleteDomain : ∀ name, operation ≠ some (.deleteDomain name)) :
    (write s operation).tables.domains = s.tables.domains := by
  cases operation with
  | none => rfl
  | some operation =>
    rw [write, Option.bind_some]
    cases done : perform s.tables operation with
    | none => rfl
    | some tables =>
      exact domains_of_perform (fun name auth policyId same =>
        createDomain name auth policyId (congrArg some same))
        (fun name same => deleteDomain name (congrArg some same)) done

/-- The domains that a token may have changed with a request: its own ones, and the one that is
created. -/
def Reached (id : Nat) (own : Text → Prop) (s : System) (event : Event) (d : Text) : Prop :=
  own d ∨ Creates id d event ∧ ¬ There s d ∧ There (step s event) d

/-- A request changes the domains of the token, and their delegations. -/
structure Within (id : Nat) (own : Text → Prop) (env : Environment) (request : Request)
    (s s' : System) : Prop where
  changed (d : Text) (item : Item) (differs : value s'.db d item ≠ value s.db d item) :
    Reached id own s (.request env id request) d ∨ d ∈ env.service.localPublicSuffixes ∧
      ∃ child, DelegatesFrom d item child ∧ Reached id own s (.request env id request) child
  removed (d : Text) (owner : Nat) (present : (d, owner) ∈ s.tables.domains)
    (absent : (d, owner) ∉ s'.tables.domains) : own d

private theorem Within.of_same {request : Request} {s' : System} (db : s'.db = s.db)
    (domains : s'.tables.domains = s.tables.domains) : Within id own env request s s' :=
  ⟨fun d item differs => absurd (congrArg (value · d item) db) differs,
    fun _ _ present absent => absurd (domains ▸ present) absent⟩

private theorem within_of_step (consistent : Consistent s.tables)
    (confined : Confined id own s.tables)
    (env : Environment) (request : Request) :
    Within id own env request s (step s (.request env id request)) := by
  cases found : findToken s.tables id with
  | none =>
    have same : step s (.request env id request) = s := by rw [step, found]
    rw [same]
    exact Within.of_same rfl rfl
  | some token =>
    obtain ⟨present, sameId⟩ := findToken_eq_some found
    have stepped : step s (.request env id request) = respond env s token request := by
      rw [step, found]
    have policies : (callerOf env s token).policies = policySet s.tables id := by
      rw [← sameId]
      rfl
    cases request with
    | write request onRRsets =>
      refine ⟨fun d item differs => .inl (.inl ?_), fun d owner there absent => ?_⟩
      · rw [stepped] at differs
        rcases changed_of_after _ _ _ _ d item differs with ⟨-, permits⟩ | ⟨_, rfl, -⟩
        · rw [policies] at permits
          exact own_of_permits confined consistent.sound present sameId permits
        · cases onRRsets
      · rw [stepped] at absent
        exact absurd there absent
    | createDomain name zonefile policyId keys =>
      cases created : Views.Writes.createDomain env.service.site (callerOf env s token) s.db name
          zonefile with
      | error refusal =>
        rw [stepped, respond, createDomain, created]
        exact Within.of_same rfl rfl
      | ok db =>
        cases performed : perform s.tables (.createDomain name token.id policyId) with
        | none =>
          rw [stepped, respond, createDomain, created, performed]
          exact Within.of_same rfl rfl
        | some tables =>
          have after : step s (.request env id (.createDomain name zonefile policyId keys)) =
              ⟨tables, delegate env name (some keys) db⟩ := by
            rw [stepped, respond, createDomain, created, performed]
          have reached : Reached id own s
              (.request env id (.createDomain name zonefile policyId keys)) name := by
            obtain ⟨other, -, fresh, domains⟩ := domains_of_insertDomain performed
            refine .inr ⟨⟨rfl, rfl⟩, not_exists.mpr fresh, other.userId, ?_⟩
            rw [after, domains]
            exact List.mem_append_right _ (List.mem_singleton_self _)
          refine ⟨fun d item differs => ?_, fun d owner there absent => ?_⟩
          · rw [after] at differs
            by_cases delegated : value (delegate env name (some keys) db) d item = value db d item
            · rw [delegated] at differs
              rcases (Views.Enforced.enforced_createDomain created).changed d item differs with
                named | ⟨_, same, -⟩
              · exact .inl (named.1 ▸ reached)
              · cases same
                exact .inl reached
            · obtain ⟨suffix, delegates⟩ := changed_of_delegate delegated
              exact .inr ⟨suffix, name, delegates, reached⟩
          · obtain ⟨other, -, -, domains⟩ := domains_of_insertDomain performed
            rw [after, domains] at absent
            exact absurd (List.mem_append_left _ there) absent
    | destroyDomain name =>
      by_cases allowed : (deletable (callerOf env s token) name &&
          env.service.site.leaves (s.db.erase name)) = true
      · have isOwn : own name := by
          have may := (Bool.and_eq_true _ _ ▸ allowed).1
          simp only [deletable, Bool.and_eq_true] at may
          rw [policies] at may
          exact own_of_deletable confined consistent.sound present sameId may.2
        cases performed : perform s.tables (.deleteDomain name) with
        | none =>
          rw [stepped, respond, destroyDomain, if_pos allowed, performed]
          exact Within.of_same rfl rfl
        | some tables =>
          rw [stepped, respond, destroyDomain, if_pos allowed, performed]
          refine ⟨fun d item differs => ?_, fun d owner there absent => ?_⟩
          · by_cases delegated : value (delegate env name none (s.db.erase name)) d item =
                value (s.db.erase name) d item
            · rw [delegated, value_erase] at differs
              have same : d = name := by
                by_contra other
                exact differs (if_neg other)
              exact .inl (.inl (same ▸ isOwn))
            · obtain ⟨suffix, delegates⟩ := changed_of_delegate delegated
              exact .inr ⟨suffix, name, delegates, .inl isOwn⟩
          · have same : d = name := by
              by_contra other
              apply absent
              rw [domains_of_deleteDomain performed]
              exact List.mem_filter.mpr ⟨there, decide_eq_true other⟩
            exact same ▸ isOwn
      · rw [stepped, respond, destroyDomain, if_neg allowed]
        exact Within.of_same rfl rfl
    | manage request =>
      rw [stepped, respond, manage_eq_none (confined.token token present sameId).2]
      exact Within.of_same rfl rfl
    | verifyTotp policyId =>
      rw [stepped]
      exact Within.of_same rfl (domains_of_write (fun _ _ _ => by simp) fun _ => by simp)
    | logout =>
      rw [stepped]
      exact Within.of_same rfl (domains_of_write (fun _ _ _ => by simp) fun _ => by simp)

/-- Whatever happens before, a request with a token that sets up its own policies changes and
deletes only domains that were created with the token. The RRsets outside of them that it changes
are their delegations. -/
theorem auto_policy_confined (id : Nat) (s : System) (events : List Event)
    (consistent : Consistent s.tables) (start : Confined id (fun _ => False) s.tables)
    (unmanaged : ∀ event ∈ events, Unmanaged id event) (env : Environment) (request : Request) :
    let before := run s events
    let after := run s (events ++ [.request env id request])
    let own (d : Text) :=
      CreatedBy id s events d ∨ CreatedBy id s (events ++ [.request env id request]) d
    (∀ d item, value after.db d item ≠ value before.db d item →
      own d ∨ d ∈ env.service.localPublicSuffixes ∧ ∃ child, DelegatesFrom d item child
        ∧ own child) ∧
    ∀ d owner, (d, owner) ∈ before.tables.domains → (d, owner) ∉ after.tables.domains →
      CreatedBy id s events d := by
  dsimp only
  have confined := confined_run consistent start unmanaged
  have within := within_of_step (consistent_run consistent events) confined env request
  have own {d : Text} (reached : Reached id (CreatedBy id s events) (run s events)
      (.request env id request) d) : CreatedBy id s events d ∨
        CreatedBy id s (events ++ [.request env id request]) d := by
    rcases reached with created | ⟨creates, fresh, there⟩
    · exact .inl created
    · rw [← run_append] at there
      exact .inr (createdBy_last creates fresh there)
  rw [run_append]
  refine ⟨fun d item differs => ?_, within.removed⟩
  rcases within.changed d item differs with reached | ⟨suffix, child, delegates, reached⟩
  · exact .inl (own reached)
  · exact .inr ⟨suffix, child, delegates, own reached⟩

end Requests

section Sample

private def token₇ : Token := ⟨3, 1, none, none, true, true, false, true⟩

private def tables₇ : Tables := reached
  [.createToken ⟨1, 1, none, none, true, true, true, false⟩ 0, .createToken token₇ 1,
    .createDomain "a.test".toList 1 0]

private def system₇ : System := ⟨tables₇, Finmap.insert "a.test".toList ∅ ∅⟩

/-- A domain is created with the token, and the token tries to change its own rights. -/
private def events₇ : List Event :=
  [.request plainEnvironment 3 (.createDomain "b.test".toList none 2 []),
    .request plainEnvironment 3 (.manage (.update 3 0 ⟨true, true, true, false⟩))]

private theorem confined₇ : Confined 3 (fun _ => False) tables₇ := by
  have tokens : ∀ token ∈ tables₇.tokens, token.id = 3 →
      token.autoPolicy = true ∧ token.permManageTokens = false := by
    decide +kernel
  have policies : ∀ policy ∈ tables₇.policies, policy.token = 3 → policy.permWrite = false := by
    decide +kernel
  refine ⟨tokens, fun policy present same permissive => ?_⟩
  rw [policies policy present same] at permissive
  cases permissive

theorem auto_policy_confined_deleted :
    There (run system₇ events₇) "b.test".toList ∧
    let before := run system₇ events₇
    let after := run system₇ (events₇ ++
      [.request plainEnvironment 3 (.destroyDomain "b.test".toList)])
    let own (d : Text) := CreatedBy 3 system₇ events₇ d ∨ CreatedBy 3 system₇ (events₇ ++
      [.request plainEnvironment 3 (.destroyDomain "b.test".toList)]) d
    (∀ d item, value after.db d item ≠ value before.db d item →
      own d ∨ d ∈ plainEnvironment.service.localPublicSuffixes ∧
        ∃ child, DelegatesFrom d item child ∧ own child) ∧
    ∀ d owner, (d, owner) ∈ before.tables.domains → (d, owner) ∉ after.tables.domains →
      CreatedBy 3 system₇ events₇ d := by
  refine ⟨⟨1, by decide +kernel⟩, auto_policy_confined 3 system₇ events₇
    ⟨sound_reached _, Tokens.Binding.linked_reached _⟩ confined₇ ?_ plainEnvironment _⟩
  intro event member _
  rcases List.mem_cons.mp member with rfl | later
  · exact ⟨_, _, rfl⟩
  · exact ⟨_, _, List.mem_singleton.mp later⟩

end Sample

end DesecStack.Tenants.AutoPolicy
