/- module: DesecStack/Tenants/Privileges
   layer: main results
   digest: Without a token that manages tokens, the rights of the tokens of a user do not grow. -/

import DesecStack.Tenants.AutoPolicy

set_option autoImplicit false
set_option relaxedAutoImplicit false

namespace DesecStack.Tenants.Privileges

open Library.PyText (Text)
open Tokens.Policies
open Tokens.Store
open Tokens.Primacy
open Requests Effects Isolation Grants AutoPolicy

/-- If the user acts, it is with a token that may not manage tokens. -/
def Unprivileged (user : Nat) (s : System) (event : Event) : Prop :=
  actor s event = some user → ∃ env auth request, event = .request env auth request ∧
    ∀ token, findToken s.tables auth = some token → token.permManageTokens = false

/-- The tokens of a user have been there with their rights, and the policies by which they permit
more are for domains that were created with them. -/
structure Bounded (user : Nat) (s : System) (events : List Event) : Prop where
  token (token : Token) (present : token ∈ (run s events).tables.tokens)
    (own : token.userId = user) : ∃ old ∈ s.tables.tokens, SameRights old token
  policy (token : Token) (present : token ∈ (run s events).tables.tokens)
    (own : token.userId = user) (policy : TokenDomainPolicy)
    (there : policy ∈ (run s events).tables.policies) (of : policy.token = token.id)
    (permissive : policy.permWrite = true) : policy ∈ s.tables.policies ∨
      ∃ name, policy.scope = (some name, none, none) ∧ CreatedBy token.id s events name

section Runs

variable {user : Nat} {s : System} {events : List Event} {event : Event}

private theorem unprivileged_of_all {env : Environment} {auth : Nat} {request : Request}
    (unable : (findToken s.tables auth).all (fun token => !token.permManageTokens) = true) :
    Unprivileged user s (.request env auth request) := by
  refine fun _ => ⟨env, auth, request, rfl, fun token found => ?_⟩
  rw [found] at unable
  simpa using unable

private theorem grows_of_unprivileged (consistent : Consistent s.tables)
    (unprivileged : Unprivileged user s event) {token : Token}
    (present : token ∈ (step s event).tables.tokens) (own : token.userId = user) :
    Grows token.id (fun name => Creates token.id name event ∧ ¬ There s name) s.tables
      (step s event).tables := by
  by_cases foreign : Foreign user s event
  · have isolated := isolated_step consistent foreign
    have unique {other : Token} (here : other ∈ (step s event).tables.tokens)
        (same : other.id = token.id) : other = token :=
      (consistent_step consistent event).sound.token_unique here present same
    refine Grows.of_subset (fun other here same => ?_) fun policy there of => ?_
    · obtain rfl := unique here same
      exact isolated.made other here own
    · exact (isolated.policies token present own policy of).mp there
  · obtain ⟨env, auth, request, rfl, unable⟩ := unprivileged (not_not.mp foreign)
    rw [step] at present ⊢
    cases found : findToken s.tables auth with
    | none => exact Grows.refl ..
    | some acting =>
      obtain ⟨there, rfl⟩ := findToken_eq_some found
      exact grows_of_respond there fun _ _ _ => unable acting found

private theorem Bounded.append (consistent : Consistent s.tables) (bounded : Bounded user s events)
    (unprivileged : Unprivileged user (run s events) event) :
    Bounded user s (events ++ [event]) := by
  have before := consistent_run consistent events
  have linked := (consistent_step before event).linked
  rw [← run_append] at linked
  have grows {token : Token} (present : token ∈ (run s (events ++ [event])).tables.tokens)
      (own : token.userId = user) := by
    rw [run_append] at present
    exact grows_of_unprivileged before unprivileged present own
  constructor
  · intro token present own
    obtain ⟨old, there, rights⟩ := (grows present own).token token (run_append .. ▸ present) rfl
    obtain ⟨first, here, earlier⟩ := bounded.token old there (rights.userId_eq.trans own)
    exact ⟨first, here, earlier.trans rights⟩
  · intro token present own policy there of permissive
    obtain ⟨old, known, rights⟩ := (grows present own).token token (run_append .. ▸ present) rfl
    have exists_ {name : Text} (scope : policy.scope = (some name, none, none)) :
        There (run s (events ++ [event])) name := by
      obtain ⟨other, -, -, domains⟩ := linked.policies policy there
      exact ⟨other.userId, domains name (congrArg Prod.fst scope)⟩
    rcases (grows present own).policy policy (run_append .. ▸ there) of permissive with
      was | ⟨name, ⟨creates, fresh⟩, scope⟩
    · rcases bounded.policy old known (rights.userId_eq.trans own) policy was
        (of.trans rights.id.symm) permissive with first | ⟨name, scope, created⟩
      · exact .inl first
      · rw [rights.id] at created
        exact .inr ⟨name, scope, created.append (exists_ scope)⟩
    · exact .inr ⟨name, scope, createdBy_last creates fresh (exists_ scope)⟩

/-- As long as a user acts with tokens that may not manage tokens, whatever others do, no token of
the user gets more rights than it had, but for permissive policies on domains created with it. -/
theorem rights_never_grow (user : Nat) (s : System) (events : List Event)
    (consistent : Consistent s.tables) (unprivileged : Along (Unprivileged user) s events) :
    Bounded user s events := by
  induction events using List.reverseRecOn with
  | nil =>
    exact ⟨fun token present _ => ⟨token, present, SameRights.refl token⟩,
      fun _ _ _ _ there _ _ => .inl there⟩
  | append_singleton events event ih =>
    obtain ⟨earlier, last⟩ := along_append.mp unprivileged
    exact (ih earlier).append consistent last

end Runs

section Sample

private def tables₈ : Tables := reached
  [.createToken ⟨1, 1, none, none, true, true, false, true⟩ 1,
    .createToken ⟨2, 2, none, none, true, true, true, false⟩ 0]

/-- A domain is created with a token of the first user, and both users try to change its rights. -/
private def events₈ : List Event :=
  [.request plainEnvironment 1 (.createDomain "b.test".toList none 2 []),
    .request plainEnvironment 1 (.manage (.createPolicy 1 3 ⟨none, none, some "A".toList, true⟩)),
    .request plainEnvironment 2 (.manage (.update 1 0 ⟨true, true, true, true⟩))]

theorem rights_never_grow_created :
    (run ⟨tables₈, ∅⟩ events₈).tables.policies =
        [⟨1, 1, none, none, none, false⟩, ⟨2, 1, some "b.test".toList, none, none, true⟩] ∧
      Bounded 1 ⟨tables₈, ∅⟩ events₈ := by
  refine ⟨by decide +kernel, rights_never_grow 1 _ events₈
    ⟨sound_reached _, Tokens.Binding.linked_reached _⟩ ⟨?_, ?_, ?_, trivial⟩⟩
  · exact unprivileged_of_all (by decide +kernel)
  · exact unprivileged_of_all (by decide +kernel)
  · exact fun same => absurd same (by decide +kernel)

end Sample

end DesecStack.Tenants.Privileges
