/- module: DesecStack/Tokens/Binding
   source: api/desecapi/models/tokens.py
   digest: Policies stay linked to tokens and domains, and when a token can be bound to a user. -/

import DesecStack.Tokens.Primacy

set_option autoImplicit false
set_option relaxedAutoImplicit false

namespace DesecStack.Tokens.Binding

open Library.PyText (Text)
open Policies Store Primacy

/-- A policy has its token, and its domain belongs to the user of the token. -/
def LinkedTo (tokens : List Token) (domains : List (Text × Nat)) (policy : TokenDomainPolicy) :
    Prop :=
  ∃ token ∈ tokens, token.id = policy.token ∧
    ∀ name, policy.domain = some name → (name, token.userId) ∈ domains

/-- The foreign keys hold, and domains have names of their own. -/
structure Linked (tables : Tables) : Prop where
  policies : ∀ policy ∈ tables.policies, LinkedTo tables.tokens tables.domains policy
  names : (tables.domains.map Prod.fst).Nodup

section Links

variable {tables tables' : Tables}

private theorem foreignKeys_iff : foreignKeys tables = true ↔
    ∀ policy ∈ tables.policies, LinkedTo tables.tokens tables.domains policy := by
  simp [foreignKeys, LinkedTo, Option.all_eq_true]

private theorem linked_of_insertPolicy {policy : TokenDomainPolicy}
    (names : (tables.domains.map Prod.fst).Nodup)
    (done : insertPolicy tables policy = some tables') : Linked tables' := by
  simp only [insertPolicy, Option.ite_none_right_eq_some, Bool.and_eq_true,
    Option.some.injEq] at done
  obtain ⟨⟨⟨_, linked⟩, _⟩, rfl⟩ := done
  exact ⟨foreignKeys_iff.mp linked, names⟩

private theorem linked_of_ensureDefault (linked : Linked tables) {token : Token} {policyId : Nat}
    (done : ensureDefault tables token policyId = some tables') : Linked tables' := by
  simp only [ensureDefault, Option.bind_eq_bind, Option.bind_eq_some_iff,
    Option.ite_none_right_eq_some, Option.some.injEq] at done
  obtain ⟨ensured, inserted, _, rfl⟩ := done
  split at inserted
  · exact linked_of_insertPolicy linked.names inserted
  · exact Option.some.inj inserted ▸ linked

theorem linked_of_perform (linked : Linked tables) {operation : Operation}
    (done : perform tables operation = some tables') : Linked tables' := by
  cases operation with
  | createToken token policyId =>
    simp only [perform, insertToken, Option.ite_none_right_eq_some] at done
    have inserted : Linked { tables with tokens := tables.tokens ++ [token] } := by
      refine ⟨fun policy member => ?_, linked.names⟩
      obtain ⟨old, there, owned⟩ := linked.policies policy member
      exact ⟨old, List.mem_append_left _ there, owned⟩
    exact linked_of_ensureDefault inserted done.2
  | saveToken token policyId =>
    simp only [perform, updateToken, Option.bind_eq_bind, Option.bind_eq_some_iff,
      Option.ite_none_right_eq_some, Bool.and_eq_true] at done
    obtain ⟨_, _, ⟨_, checked⟩, ensured⟩ := done
    exact linked_of_ensureDefault ⟨foreignKeys_iff.mp checked, linked.names⟩ ensured
  | createPolicy policy => exact linked_of_insertPolicy linked.names done
  | savePolicy policy =>
    simp only [perform, updatePolicy, Option.bind_eq_bind, Option.bind_eq_some_iff,
      Option.ite_none_right_eq_some, Bool.and_eq_true, Option.some.injEq] at done
    obtain ⟨_, _, _, _, ⟨⟨_, checked⟩, _⟩, rfl⟩ := done
    exact ⟨foreignKeys_iff.mp checked, linked.names⟩
  | deletePolicy id =>
    simp only [perform, deletePolicy, Option.bind_eq_bind, Option.bind_eq_some_iff,
      Option.ite_none_right_eq_some, Option.some.injEq] at done
    obtain ⟨_, _, _, _, _, rfl⟩ := done
    exact ⟨fun policy member => linked.policies policy (List.mem_of_mem_filter member),
      linked.names⟩
  | createDomain name auth policyId =>
    simp only [perform, insertDomain, Option.bind_eq_bind, Option.bind_eq_some_iff,
      Option.ite_none_left_eq_some] at done
    obtain ⟨token, _, new, done⟩ := done
    have names : ((tables.domains ++ [(name, token.userId)]).map Prod.fst).Nodup := by
      rw [List.map_append, List.map_singleton]
      refine List.nodup_append.mpr ⟨linked.names, List.nodup_singleton _, ?_⟩
      intro old there other single same
      obtain ⟨domain, member, rfl⟩ := List.mem_map.mp there
      apply new
      rw [List.any_eq_true]
      exact ⟨domain, member, by simpa [same] using single⟩
    split at done
    · exact linked_of_insertPolicy names done
    · obtain rfl := Option.some.inj done
      refine ⟨fun policy member => ?_, names⟩
      obtain ⟨token, there, owned, domains⟩ := linked.policies policy member
      exact ⟨token, there, owned, fun name found =>
        List.mem_append_left _ (domains name found)⟩
  | deleteDomain name =>
    simp only [perform, deleteDomain, Option.ite_none_right_eq_some, Option.some.injEq] at done
    obtain ⟨_, rfl⟩ := done
    constructor
    · intro policy member
      obtain ⟨there, other⟩ := List.mem_filter.mp member
      obtain ⟨token, present, owned, domains⟩ := linked.policies policy there
      refine ⟨token, present, owned, fun kept found => ?_⟩
      refine List.mem_filter.mpr ⟨domains kept found, ?_⟩
      rw [decide_eq_true_eq] at other ⊢
      exact fun same => other (found.trans (congrArg some same))
    · exact linked.names.sublist (List.filter_sublist.map Prod.fst)
  | deleteToken id =>
    simp only [perform, deleteToken, Option.ite_none_right_eq_some, Option.some.injEq] at done
    obtain ⟨_, rfl⟩ := done
    refine ⟨fun policy member => ?_, linked.names⟩
    obtain ⟨there, other⟩ := List.mem_filter.mp member
    obtain ⟨token, present, owned, domains⟩ := linked.policies policy there
    refine ⟨token, List.mem_filter.mpr ⟨present, ?_⟩, owned, domains⟩
    rwa [owned]

/-- The links hold after every sequence of operations, rejected ones included. -/
theorem linked_reached (operations : List Operation) : Linked (reached operations) :=
  Library.Runs.attempts_preserve (fun _ _ _ linked done => linked_of_perform linked done)
    ⟨fun _ => (absurd · List.not_mem_nil), List.nodup_nil⟩

end Links

/-- Nothing about the token stands against another user: it does not manage tokens, it is no login
token, and no policy of it is about one domain. -/
def Bindable (tables : Tables) (token : Token) : Prop :=
  token.permManageTokens = false ∧ token.mfa = none ∧
    ∀ policy ∈ policySet tables token.id, policy.domain = none

section Binding

variable {tables : Tables} {token : Token} {user : Nat}

/-- The token with the user that it is bound to. -/
def bound (token : Token) (user : Nat) : Token := { token with userOverride := some user }

private theorem clean_bound (sound : Sound tables) (member : token ∈ tables.tokens) :
    Token.clean tables (bound token user) = !token.permManageTokens := by
  have policies : (!token.autoPolicy ||
      !(getPolicy (policySet tables token.id) none).any TokenDomainPolicy.permWrite) = true := by
    cases auto : token.autoPolicy with
    | false => rfl
    | true =>
      cases found : getPolicy (policySet tables token.id) none with
      | none => rfl
      | some default =>
        obtain ⟨policy, there, owned, represents, restrictive⟩ := sound.auto token member auto
        obtain ⟨inside, first⟩ := mem_of_getPolicy_none found
        obtain ⟨place, same⟩ := mem_policySet_iff.mp inside
        have equal := default_unique sound.unique place there (same.trans owned.symm) first
          represents
        simp [equal, restrictive]
  show (!(token.permManageTokens && true) && _) = _
  rw [show ((!(bound token user).autoPolicy ||
      !(getPolicy (policySet tables (bound token user).id) none).any
        TokenDomainPolicy.permWrite) : Bool) = true from policies]
  simp

private theorem foreignKeys_bound (linked : Linked tables)
    (tokenIds : (tables.tokens.map Token.id).Nodup)
    (member : token ∈ tables.tokens) (fresh : token.userOverride = none)
    (other : token.owner ≠ user) :
    foreignKeys { tables with tokens := tables.tokens.map fun old =>
        if old.id = token.id then bound token user else old } = true ↔
      ∀ policy ∈ policySet tables token.id, policy.domain = none := by
  rw [foreignKeys_iff]
  constructor
  · intro checked policy inside
    obtain ⟨there, owned⟩ := mem_policySet_iff.mp inside
    by_contra some
    obtain ⟨name, domain⟩ := Option.ne_none_iff_exists'.mp some
    obtain ⟨updated, present, same, domains⟩ := checked policy there
    obtain ⟨old, before, rfl⟩ := List.mem_map.mp present
    -- The domain belongs to the owner, and not to the user as well.
    obtain ⟨row, rowThere, rowSame, rowDomains⟩ := linked.policies policy there
    obtain rfl : row = token :=
      List.inj_on_of_nodup_map tokenIds rowThere member (rowSame.trans owned)
    have mine := rowDomains name domain
    rw [Token.userId, fresh] at mine
    have theirs : (name, user) ∈ tables.domains := by
      by_cases own : old.id = row.id
      · rw [if_pos own] at domains
        exact domains name domain
      · rw [if_neg own] at same
        exact absurd (same.trans owned) own
    have equal := List.inj_on_of_nodup_map linked.names mine theirs rfl
    exact other (congrArg Prod.snd equal)
  · intro domainless policy there
    obtain ⟨row, rowThere, owned, domains⟩ := linked.policies policy there
    by_cases own : row.id = token.id
    · refine ⟨bound token user, ?_, own.symm.trans owned, fun name domain => ?_⟩
      · exact List.mem_map.mpr ⟨row, rowThere, if_pos own⟩
      · rw [domainless policy (mem_policySet_iff.mpr ⟨there, owned.symm.trans own⟩)] at domain
        cases domain
    · exact ⟨row, List.mem_map.mpr ⟨row, rowThere, if_neg own⟩, owned, domains⟩

private theorem ensureDefault_eq {updated : Tables} (policies : updated.policies = tables.policies)
    (sound : Sound tables) (member : token ∈ tables.tokens) (policyId : Nat) :
    ensureDefault updated (bound token user) policyId = some updated := by
  have set : policySet updated token.id = policySet tables token.id := by
    rw [policySet, policySet, policies]
  rw [ensureDefault]
  cases auto : token.autoPolicy with
  | false => simp [bound, auto, tokenAutoPolicy]
  | true =>
    obtain ⟨policy, there, owned, represents, _⟩ := sound.auto token member auto
    have inside := mem_policySet_iff.mpr ⟨there, owned⟩
    have found := getPolicy_none_isSome inside represents
    simp only [bound, auto, set, tokenAutoPolicy, Option.isNone_eq_false_iff.mpr found,
      Bool.and_false, Bool.false_eq_true, if_false, Bool.not_true, Bool.false_or,
      Option.bind_eq_bind, Option.bind_some]
    exact if_pos (List.any_eq_true.mpr ⟨policy, inside, represents⟩)

/-- The tables after the token has been bound. -/
def afterBinding (tables : Tables) (token : Token) (user : Nat) : Tables :=
  { tables with
    tokens := tables.tokens.map fun old => if old.id = token.id then bound token user else old }

theorem updateToken_bound (sound : Sound tables) (linked : Linked tables)
    (found : findToken tables token.id = some token) (fresh : token.userOverride = none)
    (other : token.owner ≠ user) (policyId : Nat) {tables' : Tables} :
    updateToken tables (bound token user) policyId = some tables' ↔
      Bindable tables token ∧ tables' = afterBinding tables token user := by
  have member := (findToken_eq_some found).1
  have conditions : (bound token user).userOverrideConditions ↔
      token.permManageTokens = false ∧ token.mfa = none := by
    simp [bound, Token.userOverrideConditions, Ne.symm other]
  have here : findToken tables (bound token user).id = some token := found
  have keys : foreignKeys (afterBinding tables token user) = true ↔ _ :=
    foreignKeys_bound linked sound.tokenIds member fresh other
  have policies : (afterBinding tables token user).policies = tables.policies := rfl
  have ensured : ensureDefault (afterBinding tables token user) (bound token user) policyId =
      some (afterBinding tables token user) := ensureDefault_eq policies sound member policyId
  have whole : updateToken tables (bound token user) policyId =
      if !token.permManageTokens && decide (bound token user).userOverrideConditions && true &&
          foreignKeys (afterBinding tables token user) then
        some (afterBinding tables token user) else none := by
    rw [updateToken, here, ← ensured, ← clean_bound sound member]
    simp only [fresh, Option.isNone_none, Bool.or_true, Option.bind_eq_bind, Option.bind_some]
    rfl
  rw [whole, Bindable, ← keys, Option.ite_none_right_eq_some]
  simp only [Bool.and_eq_true, Bool.not_eq_true', decide_eq_true_eq, conditions, and_true,
    Option.some.injEq, eq_comm (a := tables')]
  tauto

end Binding

end DesecStack.Tokens.Binding
