/- module: DesecStack/Tenants/Effects
   layer: lemmas
   digest: What the writes that a user may ask for do to the rows of the tables. -/

import DesecStack.Tenants.Requests
import DesecStack.Tokens.Binding
import DesecStack.Tokens.Primacy

set_option autoImplicit false
set_option relaxedAutoImplicit false

namespace DesecStack.Tenants.Effects

open Library.PyText (Text)
open Tokens.Policies
open Tokens.Store
open Tokens.Primacy
open Tokens.Binding (Linked linked_of_perform)

/-- The constraints that the tables satisfy at all times. -/
structure Consistent (tables : Tables) : Prop where
  sound : Sound tables
  linked : Linked tables

theorem consistent_of_perform {tables tables' : Tables} (consistent : Consistent tables)
    {operation : Operation} (done : perform tables operation = some tables') :
    Consistent tables' :=
  ⟨sound_of_perform consistent.sound done, linked_of_perform consistent.linked done⟩

/-- What a user can do: only own tokens are made and given policies, only own tokens and those that
act for others are deleted, and only own domains come and go. -/
structure Acts (user : Nat) (before after : Tables) : Prop where
  made (token : Token) (present : token ∈ after.tokens) :
    token ∈ before.tokens ∨ token.userId = user
  ended (token : Token) (present : token ∈ before.tokens) :
    token ∈ after.tokens ∨ token.userId = user ∨ token.owner = user
  granted (policy : TokenDomainPolicy) (present : policy ∈ after.policies) :
    policy ∈ before.policies ∨ ∀ token ∈ after.tokens, token.id = policy.token → token.userId = user
  revoked (policy : TokenDomainPolicy) (present : policy ∈ before.policies) :
    policy ∈ after.policies ∨ ∀ token ∈ before.tokens, token.id = policy.token →
      token.userId = user ∨ token ∉ after.tokens
  domains (name : Text) (owner : Nat) (other : owner ≠ user) :
    (name, owner) ∈ after.domains ↔ (name, owner) ∈ before.domains

section Acts

variable {user : Nat} {before middle after : Tables}

theorem Acts.refl (user : Nat) (tables : Tables) : Acts user tables tables :=
  ⟨fun _ => .inl, fun _ => .inl, fun _ => .inl, fun _ => .inl, fun _ _ _ => Iff.rfl⟩

theorem Acts.trans (one : Acts user before middle) (two : Acts user middle after) :
    Acts user before after where
  made token present := by
    rcases two.made token present with there | own
    · exact one.made token there
    · exact .inr own
  ended token present := by
    rcases one.ended token present with there | own
    · exact two.ended token there
    · exact .inr own
  granted policy present := by
    rcases two.granted policy present with there | own
    · rcases one.granted policy there with old | own
      · exact .inl old
      · refine .inr fun token here same => ?_
        rcases two.made token here with was | user
        · exact own token was same
        · exact user
    · exact .inr own
  revoked policy present := by
    have vanished {token : Token} (gone : token ∉ middle.tokens) :
        token.userId = user ∨ token ∉ after.tokens := by
      by_cases back : token ∈ after.tokens
      · exact .inl ((two.made token back).resolve_left gone)
      · exact .inr back
    rcases one.revoked policy present with there | own
    · rcases two.revoked policy there with last | own
      · exact .inl last
      · refine .inr fun token _ same => ?_
        by_cases was : token ∈ middle.tokens
        · exact own token was same
        · exact vanished was
    · refine .inr fun token here same => ?_
      rcases own token here same with user | gone
      · exact .inl user
      · exact vanished gone
  domains name owner other := (two.domains name owner other).trans (one.domains name owner other)

end Acts

/-- The writes that a user may ask for. -/
def Owned (tables : Tables) (user : Nat) : Operation → Prop
  | .createToken token _ => token.userId = user
  | .saveToken token _ =>
      token.userId = user ∧ ∀ old ∈ tables.tokens, old.id = token.id → old.userId = user
  | .createPolicy policy | .savePolicy policy =>
      ∀ token ∈ tables.tokens, token.id = policy.token → token.userId = user
  | .deletePolicy id => ∀ policy ∈ tables.policies, policy.id = id →
      ∀ token ∈ tables.tokens, token.id = policy.token → token.userId = user
  | .createDomain _ auth _ => ∀ token ∈ tables.tokens, token.id = auth → token.userId = user
  | .deleteDomain name => ∀ owner, (name, owner) ∈ tables.domains → owner = user
  | .deleteToken id =>
      ∀ token ∈ tables.tokens, token.id = id → token.userId = user ∨ token.owner = user

section Operations

variable {tables tables' : Tables} {user : Nat}

private theorem acts_of_insertPolicy {policy : TokenDomainPolicy}
    (own : ∀ token ∈ tables.tokens, token.id = policy.token → token.userId = user)
    (done : insertPolicy tables policy = some tables') : Acts user tables tables' := by
  obtain ⟨rfl, -⟩ := insertPolicy_spec done
  refine ⟨fun _ => .inl, fun _ => .inl, fun other present => ?_, fun other present => ?_,
    fun _ _ _ => Iff.rfl⟩
  · rcases List.mem_append.mp present with old | new
    · exact .inl old
    · rw [List.mem_singleton.mp new]
      exact .inr own
  · exact .inl (List.mem_append_left _ present)

private theorem acts_of_ensureDefault {token : Token} {policyId : Nat}
    (own : ∀ other ∈ tables.tokens, other.id = token.id → other.userId = user)
    (done : ensureDefault tables token policyId = some tables') : Acts user tables tables' := by
  simp only [ensureDefault, Option.bind_eq_bind, Option.bind_eq_some_iff,
    Option.ite_none_right_eq_some, Option.some.injEq] at done
  obtain ⟨ensured, inserted, -, rfl⟩ := done
  split at inserted
  · exact acts_of_insertPolicy own inserted
  · rw [← Option.some.inj inserted]
    exact Acts.refl user tables

private theorem acts_of_insertToken {token : Token} {policyId : Nat}
    (own : token.userId = user) (done : insertToken tables token policyId = some tables') :
    Acts user tables tables' := by
  simp only [insertToken, Option.ite_none_right_eq_some, Bool.and_eq_true] at done
  obtain ⟨⟨⟨-, fresh⟩, -⟩, ensured⟩ := done
  have new : ∀ other ∈ tables.tokens, other.id ≠ token.id := by
    simpa [findToken] using fresh
  have inserted : Acts user tables { tables with tokens := tables.tokens ++ [token] } := by
    refine ⟨fun other present => ?_, fun other present => .inl (List.mem_append_left _ present),
      fun policy present => .inl present, fun policy present => .inl present, fun _ _ _ => Iff.rfl⟩
    rcases List.mem_append.mp present with old | single
    · exact .inl old
    · rw [List.mem_singleton.mp single]
      exact .inr own
  refine inserted.trans (acts_of_ensureDefault (fun other present same => ?_) ensured)
  rcases List.mem_append.mp present with old | single
  · exact absurd same (new other old)
  · rw [List.mem_singleton.mp single]
    exact own

private theorem acts_of_updateToken {token : Token} {policyId : Nat} (own : token.userId = user)
    (before : ∀ old ∈ tables.tokens, old.id = token.id → old.userId = user)
    (done : updateToken tables token policyId = some tables') : Acts user tables tables' := by
  simp only [updateToken, Option.bind_eq_bind, Option.bind_eq_some_iff,
    Option.ite_none_right_eq_some] at done
  obtain ⟨-, -, -, ensured⟩ := done
  have updated : Acts user tables { tables with
      tokens := tables.tokens.map fun other => if other.id = token.id then token else other } := by
    refine ⟨fun other present => ?_, fun other present => ?_, fun policy present => .inl present,
      fun policy present => .inl present, fun _ _ _ => Iff.rfl⟩
    · rcases mem_replaced present with rfl | ⟨old, -⟩
      · exact .inr own
      · exact .inl old
    · by_cases same : other.id = token.id
      · exact .inr (.inl (before other present same))
      · exact .inl (mem_replaced_of_ne present same)
  refine updated.trans (acts_of_ensureDefault (fun other present same => ?_) ensured)
  rcases mem_replaced present with rfl | ⟨-, different⟩
  · exact own
  · exact absurd same different

private theorem acts_of_updatePolicy (consistent : Consistent tables) {policy : TokenDomainPolicy}
    (own : ∀ token ∈ tables.tokens, token.id = policy.token → token.userId = user)
    (done : updatePolicy tables policy = some tables') : Acts user tables tables' := by
  simp only [updatePolicy, Option.bind_eq_bind, Option.bind_eq_some_iff,
    Option.ite_none_right_eq_some, Option.some.injEq] at done
  obtain ⟨known, found, -, -, -, rfl⟩ := done
  have there := mem_policySet_iff.mp (List.mem_of_find?_eq_some found)
  have sameId : known.id = policy.id := by simpa using List.find?_some found
  refine ⟨fun _ => .inl, fun _ => .inl, fun other present => ?_, fun other present => ?_,
    fun _ _ _ => Iff.rfl⟩
  · rcases mem_replaced present with rfl | ⟨old, -⟩
    · exact .inr own
    · exact .inl old
  · by_cases same : other.id = policy.id
    · have one : other = known := List.inj_on_of_nodup_map consistent.sound.policyIds present
        there.1 (same.trans sameId.symm)
      refine .inr fun token here owns => .inl (own token here ?_)
      rw [owns, one, there.2]
    · exact .inl (mem_replaced_of_ne present same)

private theorem acts_of_deletePolicy {id : Nat}
    (own : ∀ policy ∈ tables.policies, policy.id = id →
      ∀ token ∈ tables.tokens, token.id = policy.token → token.userId = user)
    (done : deletePolicy tables id = some tables') : Acts user tables tables' := by
  simp only [deletePolicy, Option.bind_eq_bind, Option.bind_eq_some_iff,
    Option.ite_none_right_eq_some, Option.some.injEq] at done
  obtain ⟨-, -, -, -, -, rfl⟩ := done
  refine ⟨fun _ => .inl, fun _ => .inl, fun policy present => .inl (List.mem_of_mem_filter present),
    fun policy present => ?_, fun _ _ _ => Iff.rfl⟩
  by_cases same : policy.id = id
  · exact .inr fun token here owns => .inl (own policy present same token here owns)
  · exact .inl (List.mem_filter.mpr ⟨present, by simpa using same⟩)

private theorem acts_of_insertDomain {name : Text} {auth policyId : Nat}
    (own : ∀ token ∈ tables.tokens, token.id = auth → token.userId = user)
    (done : insertDomain tables name auth policyId = some tables') : Acts user tables tables' := by
  simp only [insertDomain, Option.bind_eq_bind, Option.bind_eq_some_iff,
    Option.ite_none_left_eq_some] at done
  obtain ⟨token, found, -, done⟩ := done
  obtain ⟨there, sameId⟩ := findToken_eq_some found
  have inserted : Acts user tables
      { tables with domains := tables.domains ++ [(name, token.userId)] } := by
    refine ⟨fun _ => .inl, fun _ => .inl, fun _ => .inl, fun _ => .inl,
      fun other owner foreign => ?_⟩
    simp only [List.mem_append, List.mem_singleton, Prod.mk.injEq, or_iff_left_iff_imp]
    rintro ⟨-, rfl⟩
    exact absurd (own token there sameId) foreign
  split at done
  · exact inserted.trans (acts_of_insertPolicy (fun other here same => own other here
      (same.trans sameId)) done)
  · rwa [Option.some.inj done] at inserted

/-- A new domain has a new name, and belongs to the user of the token. -/
theorem domains_of_insertDomain {name : Text} {auth policyId : Nat}
    (done : insertDomain tables name auth policyId = some tables') :
    ∃ token, findToken tables auth = some token ∧ (∀ owner, (name, owner) ∉ tables.domains) ∧
      tables'.domains = tables.domains ++ [(name, token.userId)] := by
  simp only [insertDomain, Option.bind_eq_bind, Option.bind_eq_some_iff,
    Option.ite_none_left_eq_some] at done
  obtain ⟨token, found, fresh, done⟩ := done
  refine ⟨token, found, fun owner there => ?_, ?_⟩
  · exact fresh (List.any_eq_true.mpr ⟨(name, owner), there, decide_eq_true rfl⟩)
  · split at done
    · rw [(insertPolicy_spec done).1]
    · rw [← Option.some.inj done]

theorem domains_of_deleteDomain {name : Text} (done : deleteDomain tables name = some tables') :
    tables'.domains = tables.domains.filter fun domain => domain.1 ≠ name := by
  simp only [deleteDomain, Option.ite_none_right_eq_some, Option.some.injEq] at done
  exact done.2 ▸ rfl

private theorem domains_of_ensureDefault {token : Token} {policyId : Nat}
    (done : ensureDefault tables token policyId = some tables') :
    tables'.domains = tables.domains := by
  simp only [ensureDefault, Option.bind_eq_bind, Option.bind_eq_some_iff,
    Option.ite_none_right_eq_some, Option.some.injEq] at done
  obtain ⟨ensured, inserted, -, rfl⟩ := done
  split at inserted
  · rw [(insertPolicy_spec inserted).1]
  · rw [Option.some.inj inserted]

theorem domains_of_perform {operation : Operation}
    (createDomain : ∀ name auth policyId, operation ≠ .createDomain name auth policyId)
    (deleteDomain : ∀ name, operation ≠ .deleteDomain name)
    (done : perform tables operation = some tables') : tables'.domains = tables.domains := by
  cases operation with
  | createToken token policyId =>
    simp only [perform, insertToken, Option.ite_none_right_eq_some] at done
    have same := domains_of_ensureDefault done.2
    exact same
  | saveToken token policyId =>
    simp only [perform, updateToken, Option.bind_eq_bind, Option.bind_eq_some_iff,
      Option.ite_none_right_eq_some] at done
    obtain ⟨-, -, -, ensured⟩ := done
    have same := domains_of_ensureDefault ensured
    exact same
  | createPolicy policy => rw [(insertPolicy_spec done).1]
  | savePolicy policy =>
    simp only [perform, updatePolicy, Option.bind_eq_bind, Option.bind_eq_some_iff,
      Option.ite_none_right_eq_some, Option.some.injEq] at done
    obtain ⟨-, -, -, -, -, rfl⟩ := done
    rfl
  | deletePolicy id =>
    simp only [perform, deletePolicy, Option.bind_eq_bind, Option.bind_eq_some_iff,
      Option.ite_none_right_eq_some, Option.some.injEq] at done
    obtain ⟨-, -, -, -, -, rfl⟩ := done
    rfl
  | createDomain name auth policyId => exact absurd rfl (createDomain name auth policyId)
  | deleteDomain name => exact absurd rfl (deleteDomain name)
  | deleteToken id =>
    simp only [perform, deleteToken, Option.ite_none_right_eq_some, Option.some.injEq] at done
    exact done.2 ▸ rfl

private theorem acts_of_deleteDomain (consistent : Consistent tables) {name : Text}
    (own : ∀ owner, (name, owner) ∈ tables.domains → owner = user)
    (done : deleteDomain tables name = some tables') : Acts user tables tables' := by
  simp only [deleteDomain, Option.ite_none_right_eq_some, Option.some.injEq] at done
  obtain ⟨-, rfl⟩ := done
  refine ⟨fun _ => .inl, fun _ => .inl, fun policy present => .inl (List.mem_of_mem_filter present),
    fun policy present => ?_, fun other owner foreign => ?_⟩
  · by_cases same : policy.domain = some name
    · refine .inr fun token here owns => .inl ?_
      obtain ⟨linked, there, sameId, domains⟩ := consistent.linked.policies policy present
      obtain rfl := consistent.sound.token_unique here there (owns.trans sameId.symm)
      exact own _ (domains name same)
    · exact .inl (List.mem_filter.mpr ⟨present, by simpa using same⟩)
  · refine ⟨List.mem_of_mem_filter, fun present => List.mem_filter.mpr ⟨present, ?_⟩⟩
    rw [decide_eq_true_eq]
    rintro rfl
    exact foreign (own owner present)

private theorem acts_of_deleteToken {id : Nat}
    (own : ∀ token ∈ tables.tokens, token.id = id → token.userId = user ∨ token.owner = user)
    (done : deleteToken tables id = some tables') : Acts user tables tables' := by
  simp only [deleteToken, Option.ite_none_right_eq_some, Option.some.injEq] at done
  obtain ⟨-, rfl⟩ := done
  refine ⟨fun token present => .inl (List.mem_of_mem_filter present), fun token present => ?_,
    fun policy present => .inl (List.mem_of_mem_filter present), fun policy present => ?_,
    fun _ _ _ => Iff.rfl⟩
  · by_cases same : token.id = id
    · exact .inr (own token present same)
    · exact .inl (List.mem_filter.mpr ⟨present, by simpa using same⟩)
  · by_cases same : policy.token = id
    · refine .inr fun token _ owns => .inr fun still => ?_
      have other := (List.mem_filter.mp still).2
      rw [decide_eq_true_eq] at other
      exact other (owns.trans same)
    · exact .inl (List.mem_filter.mpr ⟨present, by simpa using same⟩)

theorem acts_of_perform (consistent : Consistent tables) {operation : Operation}
    (own : Owned tables user operation) (done : perform tables operation = some tables') :
    Acts user tables tables' := by
  cases operation with
  | createToken token policyId => exact acts_of_insertToken own done
  | saveToken token policyId => exact acts_of_updateToken own.1 own.2 done
  | createPolicy policy => exact acts_of_insertPolicy own done
  | savePolicy policy => exact acts_of_updatePolicy consistent own done
  | deletePolicy id => exact acts_of_deletePolicy own done
  | createDomain name auth policyId => exact acts_of_insertDomain own done
  | deleteDomain name => exact acts_of_deleteDomain consistent own done
  | deleteToken id => exact acts_of_deleteToken own done

end Operations

end DesecStack.Tenants.Effects
