/- module: DesecStack/Tenants/Grants
   layer: lemmas
   digest: Which requests can give a token rights: only its management, and its own new domains. -/

import DesecStack.Tenants.Isolation

set_option autoImplicit false
set_option relaxedAutoImplicit false

namespace DesecStack.Tenants.Grants

open Library.PyText (Text)
open Tokens.Policies
open Tokens.Store
open Tokens.Primacy
open Requests Effects Isolation

/-- A token has the user and the rights of another row. -/
structure SameRights (old token : Token) : Prop where
  id : old.id = token.id
  owner : old.owner = token.owner
  userOverride : old.userOverride = token.userOverride
  autoPolicy : old.autoPolicy = token.autoPolicy
  permCreateDomain : old.permCreateDomain = token.permCreateDomain
  permDeleteDomain : old.permDeleteDomain = token.permDeleteDomain
  permManageTokens : old.permManageTokens = token.permManageTokens

theorem SameRights.refl (token : Token) : SameRights token token :=
  ⟨rfl, rfl, rfl, rfl, rfl, rfl, rfl⟩

theorem SameRights.trans {first old token : Token} (one : SameRights first old)
    (two : SameRights old token) : SameRights first token :=
  ⟨one.id.trans two.id, one.owner.trans two.owner, one.userOverride.trans two.userOverride,
    one.autoPolicy.trans two.autoPolicy, one.permCreateDomain.trans two.permCreateDomain,
    one.permDeleteDomain.trans two.permDeleteDomain,
    one.permManageTokens.trans two.permManageTokens⟩

theorem SameRights.userId_eq {old token : Token} (same : SameRights old token) :
    old.userId = token.userId := by
  rw [Token.userId, Token.userId, same.owner, same.userOverride]

/-- From one state of the tables to another, a token keeps its rights, except for permissive
policies for some domains. -/
structure Grows (id : Nat) (new : Text → Prop) (before after : Tables) : Prop where
  token (token : Token) (present : token ∈ after.tokens) (same : token.id = id) :
    ∃ old ∈ before.tokens, SameRights old token
  policy (policy : TokenDomainPolicy) (present : policy ∈ after.policies) (same : policy.token = id)
    (permissive : policy.permWrite = true) :
    policy ∈ before.policies ∨ ∃ name, new name ∧ policy.scope = (some name, none, none)

section Grows

variable {id : Nat} {new more : Text → Prop} {before middle after tables tables' : Tables}

theorem Grows.refl (id : Nat) (new : Text → Prop) (tables : Tables) : Grows id new tables tables :=
  ⟨fun token present _ => ⟨token, present, SameRights.refl token⟩,
    fun _ present _ _ => .inl present⟩

private theorem Grows.trans (one : Grows id new before middle) (two : Grows id more middle after) :
    Grows id (fun name => new name ∨ more name) before after where
  token token present same := by
    obtain ⟨old, there, rights⟩ := two.token token present same
    obtain ⟨first, here, earlier⟩ := one.token old there (rights.id.trans same)
    exact ⟨first, here, earlier.trans rights⟩
  policy policy present same permissive := by
    rcases two.policy policy present same permissive with there | ⟨name, isNew, scope⟩
    · rcases one.policy policy there same permissive with old | ⟨name, isNew, scope⟩
      · exact .inl old
      · exact .inr ⟨name, .inl isNew, scope⟩
    · exact .inr ⟨name, .inr isNew, scope⟩

private theorem Grows.mono (grows : Grows id new before after)
    (weaker : ∀ name, new name → more name) :
    Grows id more before after where
  token := grows.token
  policy policy present same permissive := by
    rcases grows.policy policy present same permissive with old | ⟨name, isNew, scope⟩
    · exact .inl old
    · exact .inr ⟨name, weaker name isNew, scope⟩

private theorem Grows.append (one : Grows id new before middle) (two : Grows id new middle after) :
    Grows id new before after :=
  (one.trans two).mono fun _ => or_self_iff.mp

theorem Grows.of_subset (tokens : ∀ token ∈ after.tokens, token.id = id → token ∈ before.tokens)
    (policies : ∀ policy ∈ after.policies, policy.token = id → policy ∈ before.policies) :
    Grows id new before after :=
  ⟨fun token present same => ⟨token, tokens token present same, SameRights.refl token⟩,
    fun policy present same _ => .inl (policies policy present same)⟩

/-- The writes that are about a token, other than deletions. -/
def Concerns (id : Nat) : Operation → Prop
  | .createToken token _ | .saveToken token _ => token.id = id
  | .createPolicy policy | .savePolicy policy => policy.token = id
  | .createDomain _ auth _ => auth = id
  | .deletePolicy _ | .deleteDomain _ | .deleteToken _ => False

private theorem grows_of_insertPolicy {policy : TokenDomainPolicy}
    (harmless : policy.token = id → policy.permWrite = true →
      ∃ name, new name ∧ policy.scope = (some name, none, none))
    (done : insertPolicy tables policy = some tables') : Grows id new tables tables' := by
  obtain ⟨rfl, -⟩ := insertPolicy_spec done
  refine ⟨(Grows.refl id new tables).token, fun other present same permissive => ?_⟩
  rcases List.mem_append.mp present with old | single
  · exact .inl old
  · obtain rfl := List.mem_singleton.mp single
    exact .inr (harmless same permissive)

private theorem grows_of_ensureDefault {token : Token} {policyId : Nat}
    (done : ensureDefault tables token policyId = some tables') : Grows id new tables tables' := by
  simp only [ensureDefault, Option.bind_eq_bind, Option.bind_eq_some_iff,
    Option.ite_none_right_eq_some, Option.some.injEq] at done
  obtain ⟨ensured, inserted, -, rfl⟩ := done
  split at inserted
  · exact grows_of_insertPolicy (fun _ permissive => by cases permissive) inserted
  · rw [← Option.some.inj inserted]
    exact Grows.refl ..

private theorem grows_of_updateToken {token old : Token} {policyId : Nat}
    (done : updateToken tables token policyId = some tables') (known : old ∈ tables.tokens)
    (rights : token.id = id → SameRights old token) : Grows id new tables tables' := by
  simp only [updateToken, Option.bind_eq_bind, Option.bind_eq_some_iff,
    Option.ite_none_right_eq_some] at done
  obtain ⟨-, -, -, ensured⟩ := done
  have updated : Grows id new tables { tables with
      tokens := tables.tokens.map fun other => if other.id = token.id then token else other } := by
    refine ⟨fun other present same => ?_, fun _ present _ _ => .inl present⟩
    rcases mem_replaced present with rfl | ⟨there, -⟩
    · exact ⟨old, known, rights same⟩
    · exact ⟨other, there, SameRights.refl other⟩
  exact updated.append (grows_of_ensureDefault ensured)

private theorem grows_of_insertDomain {name : Text} {auth policyId : Nat}
    (isNew : auth = id → (∀ owner, (name, owner) ∉ tables.domains) → new name)
    (done : insertDomain tables name auth policyId = some tables') :
    Grows id new tables tables' := by
  obtain ⟨-, -, absent, -⟩ := domains_of_insertDomain done
  simp only [insertDomain, Option.bind_eq_bind, Option.bind_eq_some_iff,
    Option.ite_none_left_eq_some] at done
  obtain ⟨token, found, -, done⟩ := done
  have sameId := (findToken_eq_some found).2
  split at done
  · obtain ⟨token, policy⟩ : Grows id new { tables with domains := _ } tables' :=
      grows_of_insertPolicy (fun same _ => ⟨name, isNew (sameId.symm.trans same) absent, rfl⟩) done
    exact ⟨token, policy⟩
  · rw [← Option.some.inj done]
    exact ⟨(Grows.refl id new tables).token, (Grows.refl id new tables).policy⟩

private theorem grows_of_perform {operation : Operation}
    (done : perform tables operation = some tables') (others : ¬ Concerns id operation) :
    Grows id new tables tables' := by
  cases operation with
  | createToken token policyId =>
    simp only [perform, insertToken, Option.ite_none_right_eq_some] at done
    have inserted : Grows id new tables { tables with tokens := tables.tokens ++ [token] } := by
      refine Grows.of_subset (fun other present same => ?_) fun _ present _ => present
      rcases List.mem_append.mp present with old | single
      · exact old
      · exact absurd (List.mem_singleton.mp single ▸ same) others
    exact inserted.append (grows_of_ensureDefault done.2)
  | saveToken token policyId =>
    have saved := done
    simp only [perform, updateToken, Option.bind_eq_bind, Option.bind_eq_some_iff] at saved
    obtain ⟨old, found, -⟩ := saved
    have known := (findToken_eq_some found).1
    exact grows_of_updateToken done known fun same => absurd same others
  | createPolicy policy => exact grows_of_insertPolicy (fun same => absurd same others) done
  | savePolicy policy =>
    simp only [perform, updatePolicy, Option.bind_eq_bind, Option.bind_eq_some_iff,
      Option.ite_none_right_eq_some, Option.some.injEq] at done
    obtain ⟨-, -, -, -, -, rfl⟩ := done
    refine Grows.of_subset (fun _ present _ => present) fun other present same => ?_
    rcases mem_replaced present with rfl | ⟨old, -⟩
    · exact absurd same others
    · exact old
  | deletePolicy policy =>
    simp only [perform, deletePolicy, Option.bind_eq_bind, Option.bind_eq_some_iff,
      Option.ite_none_right_eq_some, Option.some.injEq] at done
    obtain ⟨-, -, -, -, -, rfl⟩ := done
    exact Grows.of_subset (fun _ present _ => present)
      fun _ present _ => List.mem_of_mem_filter present
  | createDomain name auth policyId =>
    exact grows_of_insertDomain (fun same _ => absurd same others) done
  | deleteDomain name =>
    simp only [perform, deleteDomain, Option.ite_none_right_eq_some, Option.some.injEq] at done
    obtain ⟨-, rfl⟩ := done
    exact Grows.of_subset (fun _ present _ => present)
      fun _ present _ => List.mem_of_mem_filter present
  | deleteToken token =>
    simp only [perform, deleteToken, Option.ite_none_right_eq_some, Option.some.injEq] at done
    obtain ⟨-, rfl⟩ := done
    exact Grows.of_subset (fun _ present _ => List.mem_of_mem_filter present)
      fun _ present _ => List.mem_of_mem_filter present

end Grows

/-- The requests that a token or its policies are the object of, other than deletions. -/
def Targets (id : Nat) : TokenRequest → Prop
  | .create token _ _ | .update token _ _ => token = id
  | .createPolicy token _ _ | .updatePolicy token _ _ => token = id
  | .destroy _ | .destroyPolicy _ _ => False

/-- An event in which the rights of a token may be set. -/
def Manages (id : Nat) : Event → Prop
  | .request _ _ (.manage request) => Targets id request
  | .login _ token _ => token = id
  | _ => False

/-- A domain is asked for with a token. -/
def Creates (id : Nat) (name : Text) : Event → Prop
  | .request _ auth (.createDomain own _ _ _) => auth = id ∧ own = name
  | _ => False

/-- A domain is there. -/
def There (s : System) (name : Text) : Prop := ∃ owner, (name, owner) ∈ s.tables.domains

section Events

variable {id : Nat} {new : Text → Prop} {env : Environment} {s : System} {token : Token}

private theorem id_of_visibleToken {tables : Tables} {user : Nat} {found : Token}
    (visible : visibleToken tables user id = some found) : found.id = id := by
  have holds := List.find?_some visible
  simp only [Bool.and_eq_true, decide_eq_true_eq] at holds
  exact holds.1

private theorem id_of_userToken {tables : Tables} {user : Nat} {found : Token}
    (own : userToken tables user id = some found) : found.id = id := by
  have holds := List.find?_some own
  simp only [Bool.and_eq_true, decide_eq_true_eq] at holds
  exact holds.1

private theorem targets_of_concerns {request : TokenRequest} {operation : Operation}
    (asked : operationOf env s token request = some operation) (concerns : Concerns id operation) :
    Targets id request := by
  cases request with
  | create own policyId fields =>
    rw [operationOf, Option.some.injEq] at asked
    subst asked
    exact concerns
  | update own policyId fields =>
    simp only [operationOf, Option.bind_eq_bind, Option.bind_eq_some_iff,
      Option.ite_none_right_eq_some, Option.some.injEq] at asked
    obtain ⟨old, visible, -, rfl⟩ := asked
    exact (id_of_visibleToken visible).symm.trans concerns
  | destroy own =>
    obtain ⟨old, -, rfl⟩ := Option.map_eq_some_iff.mp asked
    exact concerns
  | createPolicy own policyId fields =>
    simp only [operationOf, Option.bind_eq_bind, Option.bind_eq_some_iff,
      Option.some.injEq] at asked
    obtain ⟨owner, found, policy, made, rfl⟩ := asked
    exact (id_of_userToken found).symm.trans ((token_of_policyOf made).2.symm.trans concerns)
  | updatePolicy own policyId fields =>
    simp only [operationOf, Option.bind_eq_bind, Option.bind_eq_some_iff,
      Option.ite_none_right_eq_some, Option.some.injEq] at asked
    obtain ⟨owner, visible, old, -, policy, made, -, rfl⟩ := asked
    exact (id_of_visibleToken visible).symm.trans ((token_of_policyOf made).2.symm.trans concerns)
  | destroyPolicy own policyId =>
    simp only [operationOf, Option.bind_eq_bind, Option.bind_eq_some_iff,
      Option.ite_none_right_eq_some, Option.some.injEq] at asked
    obtain ⟨owner, visible, old, -, -, rfl⟩ := asked
    exact concerns

private theorem grows_of_write {operation : Option Operation}
    (others : ∀ asked, operation = some asked → ¬ Concerns id asked) :
    Grows id new s.tables (write s operation).tables := by
  unfold write
  cases operation with
  | none => exact Grows.refl ..
  | some asked =>
    rw [Option.bind_some]
    cases done : perform s.tables asked with
    | none => exact Grows.refl ..
    | some tables => exact grows_of_perform done (others asked rfl)

theorem manage_eq_none {request : TokenRequest} (unprivileged : token.permManageTokens = false) :
    manage env s token request = none := by
  rw [manage, unprivileged, Bool.and_false]
  rfl

theorem grows_of_respond (present : token ∈ s.tables.tokens) {request : Request}
    (unmanaged : ∀ managed, request = .manage managed → Targets id managed →
      token.permManageTokens = false) :
    Grows id (fun name => Creates id name (.request env token.id request) ∧ ¬ There s name) s.tables
      (respond env s token request).tables := by
  cases request with
  | write request onRRsets => exact Grows.refl ..
  | createDomain name zonefile policyId keys =>
    rw [respond, createDomain]
    split
    · next db tables _ performed =>
      exact grows_of_insertDomain (fun same fresh =>
        ⟨⟨same, rfl⟩, not_exists.mpr fresh⟩) performed
    · exact Grows.refl ..
  | destroyDomain name =>
    rw [respond, destroyDomain]
    split
    · split
      · exact Grows.refl ..
      · next tables performed => exact grows_of_perform performed not_false
    · exact Grows.refl ..
  | manage request =>
    apply grows_of_write
    intro asked wanted concerns
    unfold manage at wanted
    split at wanted
    · next allowed =>
      have privileged := (Bool.and_eq_true _ _ ▸ allowed).2
      have unprivileged := unmanaged request rfl (targets_of_concerns wanted concerns)
      rw [unprivileged] at privileged
      cases privileged
    · cases wanted
  | verifyTotp policyId =>
    rw [respond, write, Option.bind_some]
    cases done : perform s.tables (.saveToken { token with mfa := some true } policyId) with
    | none => exact Grows.refl ..
    | some tables =>
      have saved : updateToken s.tables { token with mfa := some true } policyId
        = some tables := done
      exact grows_of_updateToken saved present fun _ => ⟨rfl, rfl, rfl, rfl, rfl, rfl, rfl⟩
  | logout =>
    apply grows_of_write
    intro asked wanted
    obtain rfl := Option.some.inj wanted
    exact fun concerns => concerns

private theorem grows_of_login {user own : Nat} {expired : List Nat} (other : own ≠ id) :
    Grows id new s.tables (login user own expired s).tables := by
  unfold login
  dsimp only
  refine Grows.append (List.foldlRecOn (motive := fun tables => Grows id new s.tables tables) _ _
    (Grows.refl ..) fun tables grows operation member => ?_) (grows_of_write (s := ⟨_, _⟩) ?_)
  · obtain ⟨old, -, rfl⟩ := List.mem_map.mp member
    rw [Library.Runs.attempt]
    cases done : perform tables (.deleteToken old) with
    | none => exact grows
    | some next => exact grows.append (grows_of_perform done not_false)
  · intro asked wanted
    obtain rfl := Option.some.inj wanted
    exact other

/-- An event gives a token rights only if it manages the token, or creates a domain with it. -/
theorem grows_of_step {event : Event}
    (unmanaged : Manages id event → (∃ env request, event = .request env id request) ∧
      ∀ token ∈ s.tables.tokens, token.id = id → token.permManageTokens = false) :
    Grows id (fun name => Creates id name event ∧ ¬ There s name) s.tables
      (step s event).tables := by
  cases event with
  | request env auth request =>
    rw [step]
    cases found : findToken s.tables auth with
    | none => exact Grows.refl ..
    | some token =>
      obtain ⟨present, rfl⟩ := findToken_eq_some found
      refine grows_of_respond present fun managed same targets => ?_
      subst same
      obtain ⟨⟨_, _, own⟩, unprivileged⟩ := unmanaged targets
      exact unprivileged token present (Event.request.inj own).2.1
  | login user own expired =>
    apply grows_of_login
    intro same
    obtain ⟨⟨_, _, own⟩, -⟩ := unmanaged same
    cases own

end Events

end DesecStack.Tenants.Grants
