/- module: DesecStack/Tokens/Primacy
   source: api/desecapi/models/tokens.py
   digest: Tokens with policies have one default policy, in every state that is reached. -/

import DesecStack.Tokens.Store

set_option autoImplicit false
set_option relaxedAutoImplicit false

namespace DesecStack.Tokens.Primacy

open Library.PyText (Text)
open Policies Store

/-- The token and the scope of a policy, which no other policy has. -/
abbrev key (policy : TokenDomainPolicy) := (policy.token, policy.scope)

/-- The token has a default policy that satisfies the condition. -/
def HasDefault (policies : List TokenDomainPolicy) (id : Nat)
    (condition : TokenDomainPolicy → Prop) : Prop :=
  ∃ policy ∈ policies, policy.token = id ∧ policy.representsDefaultPolicy ∧ condition policy

/-- What the writes preserve. -/
structure Sound (tables : Tables) : Prop where
  tokenIds : (tables.tokens.map Token.id).Nodup
  policyIds : (tables.policies.map TokenDomainPolicy.id).Nodup
  unique : (tables.policies.map key).Nodup
  primacy : ∀ policy ∈ tables.policies, HasDefault tables.policies policy.token fun _ => True
  auto : ∀ token ∈ tables.tokens, token.autoPolicy →
    HasDefault tables.policies token.id fun default => default.permWrite = false

section Lookup

theorem mem_policySet_iff {tables : Tables} {id : Nat} {policy : TokenDomainPolicy} :
    policy ∈ policySet tables id ↔ policy ∈ tables.policies ∧ policy.token = id := by
  simp [policySet]

private theorem covers_none (policy : TokenDomainPolicy) :
    policy.covers none = policy.representsDefaultPolicy := by
  simp [TokenDomainPolicy.covers, TokenDomainPolicy.representsDefaultPolicy,
    TokenDomainPolicy.scope, Bool.and_assoc]

theorem mem_of_getPolicy_none {policies : List TokenDomainPolicy} {policy : TokenDomainPolicy}
    (found : getPolicy policies none = some policy) :
    policy ∈ policies ∧ policy.representsDefaultPolicy := by
  have member := List.argmin_mem found
  rw [List.mem_filter, covers_none] at member
  exact member

theorem getPolicy_none_isSome {policies : List TokenDomainPolicy} {policy : TokenDomainPolicy}
    (member : policy ∈ policies) (default : policy.representsDefaultPolicy) :
    (getPolicy policies none).isSome := by
  rw [Option.isSome_iff_ne_none, getPolicy, Ne, List.argmin_eq_none]
  apply List.ne_nil_of_mem (a := policy)
  rw [List.mem_filter, covers_none]
  exact ⟨member, default⟩

theorem findToken_eq_some {tables : Tables} {id : Nat} {token : Token}
    (found : findToken tables id = some token) : token ∈ tables.tokens ∧ token.id = id := by
  have same := List.find?_some found
  exact ⟨List.mem_of_find?_eq_some found, by simpa using same⟩

private theorem findPolicy_eq_some {tables : Tables} {id : Nat} {policy : TokenDomainPolicy}
    (found : findPolicy tables id = some policy) :
    policy ∈ tables.policies ∧ policy.id = id := by
  have same := List.find?_some found
  exact ⟨List.mem_of_find?_eq_some found, by simpa using same⟩

variable {tables : Tables} (sound : Sound tables)

/-- Two default policies of one token are the same. -/
theorem default_unique {policies : List TokenDomainPolicy} (unique : (policies.map key).Nodup)
    {one other : TokenDomainPolicy} (here : one ∈ policies) (there : other ∈ policies)
    (token : one.token = other.token) (first : one.representsDefaultPolicy)
    (second : other.representsDefaultPolicy) : one = other := by
  apply List.inj_on_of_nodup_map unique here there
  simp only [TokenDomainPolicy.representsDefaultPolicy, decide_eq_true_eq] at first second
  simp only [key, token, first, second]

include sound in
theorem Sound.token_unique {one other : Token} (here : one ∈ tables.tokens)
    (there : other ∈ tables.tokens) (same : one.id = other.id) : one = other :=
  List.inj_on_of_nodup_map sound.tokenIds here there same

theorem findToken_of_mem (tokenIds : (tables.tokens.map Token.id).Nodup) {token : Token}
    (member : token ∈ tables.tokens) : findToken tables token.id = some token := by
  cases found : findToken tables token.id with
  | none =>
    have absent := List.find?_eq_none.mp found token member
    simp at absent
  | some other =>
    have spec := findToken_eq_some found
    rw [List.inj_on_of_nodup_map tokenIds spec.1 member spec.2]

theorem isDefaultPolicy_of_represents (unique : (tables.policies.map key).Nodup)
    {policy : TokenDomainPolicy} (here : policy ∈ tables.policies)
    (default : policy.representsDefaultPolicy) :
    isDefaultPolicy tables policy = true := by
  obtain ⟨found, first⟩ := Option.isSome_iff_exists.mp
    (getPolicy_none_isSome (mem_policySet_iff.mpr ⟨here, rfl⟩) default)
  have spec := mem_of_getPolicy_none first
  have place := mem_policySet_iff.mp spec.1
  have same := default_unique unique place.1 here place.2 spec.2 default
  simp [isDefaultPolicy, first, same]

end Lookup

section Defaults

variable {policies policies' : List TokenDomainPolicy} {id : Nat}
  {condition : TokenDomainPolicy → Prop}

private theorem HasDefault.mono (has : HasDefault policies id condition)
    (kept : ∀ policy ∈ policies, policy.token = id → policy.representsDefaultPolicy →
      policy ∈ policies') : HasDefault policies' id condition := by
  obtain ⟨policy, member, token, default, holds⟩ := has
  exact ⟨policy, kept policy member token default, token, default, holds⟩

theorem HasDefault.weaken (has : HasDefault policies id condition) :
    HasDefault policies id fun _ => True := by
  obtain ⟨policy, member, token, default, _⟩ := has
  exact ⟨policy, member, token, default, trivial⟩

private theorem hasDefault_of_primacy {tables : Tables} {policy : TokenDomainPolicy}
    (checked : defaultPolicyPrimacy tables policy.token = true)
    (member : policy ∈ tables.policies) :
    HasDefault tables.policies policy.token fun _ => True := by
  simp only [defaultPolicyPrimacy, Bool.or_eq_true, List.isEmpty_iff, List.any_eq_true] at checked
  rcases checked with empty | ⟨default, found, represents⟩
  · have inside := mem_policySet_iff.mpr ⟨member, rfl⟩
    rw [empty] at inside
    exact absurd inside List.not_mem_nil
  · have place := mem_policySet_iff.mp found
    exact ⟨default, place.1, place.2, represents, trivial⟩

private theorem inactive_of_whenAuto {tables tables' : Tables} (sound : Sound tables)
    (tokens : tables'.tokens = tables.tokens) {policy : TokenDomainPolicy} {token : Token}
    (checked : defaultPolicyWhenAutoPolicy tables' policy = true)
    (represents : policy.representsDefaultPolicy) (member : token ∈ tables.tokens)
    (owner : token.id = policy.token) : token.autoPolicy = false := by
  have found : findToken tables' policy.token = some token := by
    rw [findToken, tokens, ← owner]
    exact findToken_of_mem sound.tokenIds member
  simpa [defaultPolicyWhenAutoPolicy, represents, found] using checked

private theorem Sound.of_removed {tables tables' : Tables} (sound : Sound tables)
    (fewer : tables'.policies.Sublist tables.policies)
    (tokens : tables'.tokens.Sublist tables.tokens)
    (kept : ∀ default ∈ tables.policies, default.representsDefaultPolicy →
      default ∈ tables'.policies ∨ (∀ policy ∈ tables'.policies, policy.token ≠ default.token) ∧
        ∀ token ∈ tables'.tokens, token.id = default.token → token.autoPolicy = false) :
    Sound tables' where
  tokenIds := sound.tokenIds.sublist (tokens.map _)
  policyIds := sound.policyIds.sublist (fewer.map _)
  unique := sound.unique.sublist (fewer.map _)
  primacy policy member := by
    obtain ⟨default, here, token, represents, holds⟩ :=
      sound.primacy policy (fewer.subset member)
    rcases kept default here represents with stays | ⟨gone, _⟩
    · exact ⟨default, stays, token, represents, holds⟩
    · exact absurd token.symm (gone policy member)
  auto token member active := by
    obtain ⟨default, here, same, represents, holds⟩ :=
      sound.auto token (tokens.subset member) active
    rcases kept default here represents with stays | ⟨_, off⟩
    · exact ⟨default, stays, same, represents, holds⟩
    · exact absurd active (by simp [off token member same.symm])

end Defaults

section Rows

variable {α : Type} {id : α → Nat} {row other : α} {rows : List α}

private theorem nodup_appended (nodup : (rows.map id).Nodup)
    (fresh : ∀ old ∈ rows, id old ≠ id row) :
    ((rows ++ [row]).map id).Nodup := by
  rw [List.map_append, List.nodup_append]
  refine ⟨nodup, List.nodup_singleton _, ?_⟩
  intro number here last there same
  obtain ⟨old, member, rfl⟩ := List.mem_map.mp here
  apply fresh old member
  simpa [same] using there

theorem map_replaced :
    (rows.map fun old => if id old = id row then row else old).map id = rows.map id := by
  rw [List.map_map]
  apply List.map_congr_left
  intro old _
  simp only [Function.comp]
  split
  · exact Eq.symm ‹_›
  · rfl

theorem mem_replaced (member : other ∈ rows.map fun old => if id old = id row then row else old) :
    other = row ∨ other ∈ rows ∧ id other ≠ id row := by
  obtain ⟨old, here, rfl⟩ := List.mem_map.mp member
  split
  · exact .inl rfl
  · exact .inr ⟨here, ‹_›⟩

theorem mem_replaced_of_ne (member : other ∈ rows) (different : id other ≠ id row) :
    other ∈ rows.map fun old => if id old = id row then row else old :=
  List.mem_map.mpr ⟨other, member, if_neg different⟩

theorem row_mem_replaced (member : other ∈ rows) (same : id other = id row) :
    row ∈ rows.map fun old => if id old = id row then row else old :=
  List.mem_map.mpr ⟨other, member, if_pos same⟩

end Rows

section Steps

variable {tables tables' : Tables}

/-- A policy that is inserted comes last, and passes the constraints. -/
theorem insertPolicy_spec {policy : TokenDomainPolicy}
    (done : insertPolicy tables policy = some tables') :
    tables' = { tables with policies := tables.policies ++ [policy] } ∧
      (∀ old ∈ tables.policies, old.id ≠ policy.id) ∧ (tables'.policies.map key).Nodup ∧
      HasDefault tables'.policies policy.token fun _ => True := by
  simp only [insertPolicy, Option.ite_none_right_eq_some, Bool.and_eq_true,
    Option.some.injEq] at done
  obtain ⟨⟨⟨⟨⟨_, new⟩, unique⟩, _⟩, primacy⟩, rfl⟩ := done
  refine ⟨rfl, ?_, ?_, ?_⟩
  · simpa [findPolicy] using new
  · simpa [uniquePolicy] using unique
  · apply hasDefault_of_primacy primacy
    exact List.mem_append_right _ (List.mem_singleton_self _)

private theorem sound_of_insertPolicy (sound : Sound tables) {policy : TokenDomainPolicy}
    (done : insertPolicy tables policy = some tables') : Sound tables' := by
  obtain ⟨rfl, fresh, unique, default⟩ := insertPolicy_spec done
  refine ⟨sound.tokenIds, nodup_appended sound.policyIds fresh, unique, ?_, ?_⟩
  · intro other member
    rcases List.mem_append.mp member with old | new
    · apply (sound.primacy other old).mono
      intro kept here _ _
      exact List.mem_append_left _ here
    · rw [List.mem_singleton.mp new]
      exact default
  · intro token member active
    apply (sound.auto token member active).mono
    intro kept here _ _
    exact List.mem_append_left _ here

private theorem sound_of_ensureDefault {token : Token} {policyId : Nat}
    (done : ensureDefault tables token policyId = some tables')
    (tokenIds : (tables.tokens.map Token.id).Nodup)
    (policyIds : (tables.policies.map TokenDomainPolicy.id).Nodup)
    (unique : (tables.policies.map key).Nodup)
    (primacy : ∀ policy ∈ tables.policies, HasDefault tables.policies policy.token fun _ => True)
    (others : ∀ other ∈ tables.tokens, other ≠ token → other.autoPolicy →
      HasDefault tables.policies other.id fun default => default.permWrite = false)
    (restrictive : token.autoPolicy → ∀ policy ∈ tables.policies, policy.token = token.id →
      policy.representsDefaultPolicy → policy.permWrite = false) : Sound tables' := by
  simp only [ensureDefault, Option.bind_eq_bind, Option.bind_eq_some_iff,
    Option.ite_none_right_eq_some, Option.some.injEq] at done
  obtain ⟨ensured, inserted, checked, rfl⟩ := done
  split at inserted
  case isTrue missing =>
    obtain ⟨rfl, fresh, unique', default⟩ := insertPolicy_spec inserted
    refine ⟨tokenIds, nodup_appended policyIds fresh, unique', ?_, ?_⟩
    · intro other member
      rcases List.mem_append.mp member with old | new
      · apply (primacy other old).mono
        intro kept here _ _
        exact List.mem_append_left _ here
      · rw [List.mem_singleton.mp new]
        exact default
    · intro other member active
      rcases eq_or_ne other token with rfl | different
      · exact ⟨_, List.mem_append_right _ (List.mem_singleton_self _), rfl, rfl, rfl⟩
      · apply (others other member different active).mono
        intro kept here _ _
        exact List.mem_append_left _ here
  case isFalse there =>
    obtain rfl := Option.some.inj inserted
    refine ⟨tokenIds, policyIds, unique, primacy, ?_⟩
    intro other member active
    rcases eq_or_ne other token with rfl | different
    · simp only [tokenAutoPolicy, active, Bool.not_true, Bool.false_or, List.any_eq_true]
        at checked
      obtain ⟨default, found, represents⟩ := checked
      have place := mem_policySet_iff.mp found
      exact ⟨default, place.1, place.2, represents,
        restrictive active default place.1 place.2 represents⟩
    · exact others other member different active

theorem restrictive_of_clean (unique : (tables.policies.map key).Nodup) {token : Token}
    (clean : Token.clean tables token = true) :
    token.autoPolicy → ∀ policy ∈ tables.policies, policy.token = token.id →
      policy.representsDefaultPolicy → policy.permWrite = false := by
  intro active policy member same default
  obtain ⟨found, first⟩ := Option.isSome_iff_exists.mp
    (getPolicy_none_isSome (mem_policySet_iff.mpr ⟨member, same⟩) default)
  have spec := mem_of_getPolicy_none first
  have place := mem_policySet_iff.mp spec.1
  have equal : found = policy :=
    default_unique unique place.1 member (place.2.trans same.symm) spec.2 default
  simp only [Token.clean, active, first, equal, Option.any_some, Bool.and_eq_true,
    Bool.not_true, Bool.false_or, Bool.not_eq_true'] at clean
  exact clean.2

private theorem sound_of_insertToken (sound : Sound tables) {token : Token} {policyId : Nat}
    (done : insertToken tables token policyId = some tables') : Sound tables' := by
  simp only [insertToken, Option.ite_none_right_eq_some, Bool.and_eq_true] at done
  obtain ⟨⟨⟨clean, new⟩, _⟩, ensured⟩ := done
  have fresh : ∀ other ∈ tables.tokens, other.id ≠ token.id := by
    simpa [findToken] using new
  refine sound_of_ensureDefault ensured ?_ sound.policyIds sound.unique sound.primacy ?_
    (restrictive_of_clean sound.unique clean)
  · exact nodup_appended sound.tokenIds fresh
  · intro other member different active
    rcases List.mem_append.mp member with old | last
    · exact sound.auto other old active
    · exact absurd (List.mem_singleton.mp last) different

private theorem sound_of_updateToken (sound : Sound tables) {token : Token} {policyId : Nat}
    (done : updateToken tables token policyId = some tables') : Sound tables' := by
  simp only [updateToken, Option.bind_eq_bind, Option.bind_eq_some_iff,
    Option.ite_none_right_eq_some, Bool.and_eq_true] at done
  obtain ⟨old, _, ⟨⟨⟨clean, _⟩, _⟩, _⟩, ensured⟩ := done
  refine sound_of_ensureDefault ensured ?_ sound.policyIds sound.unique sound.primacy ?_
    (restrictive_of_clean sound.unique clean)
  · rw [map_replaced]
    exact sound.tokenIds
  · intro other member different active
    rcases mem_replaced member with rfl | ⟨here, _⟩
    · exact absurd rfl different
    · exact sound.auto other here active

private theorem sound_of_updatePolicy (sound : Sound tables) {policy : TokenDomainPolicy}
    (done : updatePolicy tables policy = some tables') : Sound tables' := by
  simp only [updatePolicy, Option.bind_eq_bind, Option.bind_eq_some_iff,
    Option.ite_none_right_eq_some, Bool.and_eq_true, decide_eq_true_eq,
    Option.some.injEq] at done
  obtain ⟨old, found, token, owner, ⟨⟨⟨⟨agrees, strict⟩, unique⟩, _⟩, primacy⟩, rfl⟩ := done
  have place := mem_policySet_iff.mp (List.mem_of_find?_eq_some found)
  have sameId : old.id = policy.id := by simpa using List.find?_some found
  have inside := row_mem_replaced place.1 sameId
  have default := hasDefault_of_primacy primacy inside
  -- Only the row of the policy is replaced, so that a default policy that goes is that row.
  have replaced : ∀ other ∈ tables.policies, other.id = policy.id → other = old :=
    fun other member same =>
      List.inj_on_of_nodup_map sound.policyIds member place.1 (same.trans sameId.symm)
  refine ⟨sound.tokenIds, ?_, by simpa [uniquePolicy] using unique, ?_, ?_⟩
  · rw [map_replaced]
    exact sound.policyIds
  · intro other member
    rcases mem_replaced member with rfl | ⟨here, _⟩
    · exact default
    · obtain ⟨first, stays, owned, represents, _⟩ := sound.primacy other here
      by_cases same : first.id = policy.id
      · rw [← owned, replaced first stays same, place.2]
        exact default
      · exact ⟨first, mem_replaced_of_ne stays same, owned, represents, trivial⟩
  · intro holder member active
    obtain ⟨first, stays, owned, represents, restrictive⟩ := sound.auto holder member active
    by_cases same : first.id = policy.id
    · obtain rfl := replaced first stays same
      have marked : isDefaultPolicy tables policy = true := by
        have mark := isDefaultPolicy_of_represents sound.unique stays represents
        simpa only [isDefaultPolicy, place.2, same] using mark
      have holds := findToken_eq_some owner
      have equal : token = holder :=
        sound.token_unique holds.1 member (holds.2.trans (place.2.symm.trans owned))
      simp only [marked, equal, active, Bool.and_true, Bool.not_eq_true'] at strict
      exact ⟨policy, inside, place.2.symm.trans owned, agrees ▸ marked, strict⟩
    · exact ⟨first, mem_replaced_of_ne stays same, owned, represents, restrictive⟩

private theorem sound_of_deletePolicy (sound : Sound tables) {id : Nat}
    (done : deletePolicy tables id = some tables') : Sound tables' := by
  simp only [deletePolicy, Option.bind_eq_bind, Option.bind_eq_some_iff,
    Option.ite_none_right_eq_some, Bool.and_eq_true, Option.some.injEq] at done
  obtain ⟨policy, found, token, _, ⟨⟨_, primacy⟩, whenAuto⟩, rfl⟩ := done
  have place := findPolicy_eq_some found
  refine sound.of_removed List.filter_sublist (List.Sublist.refl _) ?_
  intro default member represents
  by_cases same : default.id = id
  · obtain rfl : default = policy :=
      List.inj_on_of_nodup_map sound.policyIds member place.1 (same.trans place.2.symm)
    right
    constructor
    · intro other stays owned
      obtain ⟨first, kept, token', represents', _⟩ := hasDefault_of_primacy (owned ▸ primacy) stays
      have kept' := List.mem_filter.mp kept
      have equal :=
        default_unique sound.unique kept'.1 member (token'.trans owned) represents' represents
      simp [equal, same] at kept'
    · intro holder stays owned
      exact inactive_of_whenAuto sound rfl whenAuto represents stays owned
  · exact .inl (List.mem_filter.mpr ⟨member, by simpa using same⟩)

private theorem sound_of_insertDomain (sound : Sound tables) {name : Text} {auth policyId : Nat}
    (done : insertDomain tables name auth policyId = some tables') : Sound tables' := by
  simp only [insertDomain, Option.bind_eq_bind, Option.bind_eq_some_iff] at done
  obtain ⟨token, _, done⟩ := done
  have added : Sound { tables with domains := tables.domains ++ [(name, token.userId)] } :=
    ⟨sound.tokenIds, sound.policyIds, sound.unique, sound.primacy, sound.auto⟩
  split at done
  · exact absurd done (by simp)
  · split at done
    · exact sound_of_insertPolicy added done
    · exact Option.some.inj done ▸ added

private theorem sound_of_deleteDomain (sound : Sound tables) {name : Text}
    (done : deleteDomain tables name = some tables') : Sound tables' := by
  simp only [deleteDomain, Option.ite_none_right_eq_some, Option.some.injEq] at done
  obtain ⟨_, rfl⟩ := done
  refine sound.of_removed List.filter_sublist (List.Sublist.refl _) ?_
  intro default member represents
  left
  have scope : default.scope = (none, none, none) := by
    simpa [TokenDomainPolicy.representsDefaultPolicy] using represents
  have domain : default.domain = none := congrArg Prod.fst scope
  simp [member, domain]

private theorem sound_of_deleteToken (sound : Sound tables) {id : Nat}
    (done : deleteToken tables id = some tables') : Sound tables' := by
  simp only [deleteToken, Option.ite_none_right_eq_some, Option.some.injEq] at done
  obtain ⟨_, rfl⟩ := done
  refine sound.of_removed List.filter_sublist List.filter_sublist ?_
  intro default member _
  by_cases same : default.token = id
  · right
    constructor
    · intro other stays owned
      have kept := List.mem_filter.mp stays
      simp [owned, same] at kept
    · intro token stays owned
      have kept := List.mem_filter.mp stays
      simp [owned, same] at kept
  · exact .inl (List.mem_filter.mpr ⟨member, by simpa using same⟩)

theorem sound_of_perform (sound : Sound tables) {operation : Operation}
    (done : perform tables operation = some tables') : Sound tables' := by
  cases operation with
  | createToken token policyId => exact sound_of_insertToken sound done
  | saveToken token policyId => exact sound_of_updateToken sound done
  | createPolicy policy => exact sound_of_insertPolicy sound done
  | savePolicy policy => exact sound_of_updatePolicy sound done
  | deletePolicy id => exact sound_of_deletePolicy sound done
  | createDomain name auth policyId => exact sound_of_insertDomain sound done
  | deleteDomain name => exact sound_of_deleteDomain sound done
  | deleteToken id => exact sound_of_deleteToken sound done

private theorem sound_empty : Sound ⟨[], [], []⟩ :=
  ⟨List.nodup_nil, List.nodup_nil, List.nodup_nil, by simp, by simp⟩

/-- The invariant holds after every sequence of operations, rejected ones included. -/
theorem sound_reached (operations : List Operation) : Sound (reached operations) :=
  Library.Runs.attempts_preserve (fun _ _ _ sound done => sound_of_perform sound done) sound_empty

end Steps

section Main

variable {tables : Tables}

/-- The default policies of a token with a default policy. -/
theorem Sound.filter_default (sound : Sound tables) {id : Nat} {default : TokenDomainPolicy}
    (member : default ∈ tables.policies) (token : default.token = id)
    (represents : default.representsDefaultPolicy) :
    (policySet tables id).filter TokenDomainPolicy.representsDefaultPolicy = [default] := by
  have nodup : ((policySet tables id).filter
      TokenDomainPolicy.representsDefaultPolicy).Nodup :=
    (sound.unique.of_map _).filter _ |>.filter _
  apply List.perm_singleton.mp
  rw [List.perm_ext_iff_of_nodup nodup (List.nodup_singleton _)]
  intro policy
  rw [List.mem_filter, mem_policySet_iff, List.mem_singleton]
  constructor
  · rintro ⟨⟨here, owned⟩, first⟩
    exact default_unique sound.unique here member (owned.trans token.symm) first represents
  · rintro rfl
    exact ⟨⟨member, token⟩, represents⟩

/-- After every sequence of operations, a token with a policy has one default policy, which is
there and restrictive with `auto_policy`, and no two policies of the token have one scope. -/
theorem one_default_policy (operations : List Operation) :
    ∀ token ∈ (reached operations).tokens,
      (policySet (reached operations) token.id ≠ [] →
        ∃ default, (policySet (reached operations) token.id).filter
          TokenDomainPolicy.representsDefaultPolicy = [default]) ∧
      (token.autoPolicy = true →
        ∃ default, (policySet (reached operations) token.id).filter
          TokenDomainPolicy.representsDefaultPolicy = [default] ∧ default.permWrite = false) ∧
      ((policySet (reached operations) token.id).map TokenDomainPolicy.scope).Nodup := by
  intro token member
  have sound := sound_reached operations
  refine ⟨?_, ?_, ?_⟩
  · intro some
    obtain ⟨policy, inside⟩ := List.exists_mem_of_ne_nil _ some
    have place := mem_policySet_iff.mp inside
    obtain ⟨default, stays, owned, represents, _⟩ := sound.primacy policy place.1
    exact ⟨default, sound.filter_default stays (owned.trans place.2) represents⟩
  · intro active
    obtain ⟨default, stays, owned, represents, restrictive⟩ := sound.auto token member active
    exact ⟨default, sound.filter_default stays owned represents, restrictive⟩
  · refine List.Nodup.map_on ?_ ((sound.unique.of_map _).filter _)
    intro one here other there same
    have first := mem_policySet_iff.mp here
    have second := mem_policySet_iff.mp there
    apply List.inj_on_of_nodup_map sound.unique first.1 second.1
    simp only [key, first.2, second.2, same]

/-- A token with `auto_policy`, a domain created with it, and an attempt to delete the default
policy that is rejected. -/
theorem one_default_policy_created :
    let operations : List Operation :=
      [.createToken ⟨1, 7, none, none, false, false, false, true⟩ 1,
      .createDomain "a.b".toList 1 2, .deletePolicy 1]
    ∃ default, (policySet (reached operations) 1).filter
      TokenDomainPolicy.representsDefaultPolicy = [default] ∧ default.permWrite = false :=
  (one_default_policy _ ⟨1, 7, none, none, false, false, false, true⟩ (by decide)).2.1 rfl

end Main

end DesecStack.Tokens.Primacy
