/- module: DesecStack/Tokens/Overlap
   source: api/desecapi/models/tokens.py
   digest: Setting `auto_policy` while another request relaxes the default policy. -/

import DesecStack.Tokens.Primacy

set_option autoImplicit false
set_option relaxedAutoImplicit false

namespace DesecStack.Tokens.Overlap

open Library.Runs (Along)
open Policies Store Primacy

section Parts

variable (tables : Tables)

/-- `Token.save` after `clean`, for a token that is there. -/
def tokenWrite (token : Token) (policyId : Nat) : Option Tables := do
  let old ← findToken tables token.id
  let updated := { tables with
    tokens := tables.tokens.map fun other => if other.id = token.id then token else other }
  if decide token.userOverrideConditions &&
      (token.userId = old.userId || old.userOverride.isNone) && foreignKeys updated then
    ensureDefault updated token policyId
  else none

/-- What `TokenDomainPolicy.clean` reads and checks, for a new policy or for one that is there. -/
def policyCheck (policy : TokenDomainPolicy) (adding : Bool) : Bool :=
  if adding then
    (getPolicy (policySet tables policy.token) none).isSome || policy.representsDefaultPolicy
  else
    ((policySet tables policy.token).find? fun old => old.id = policy.id).isSome &&
      (findToken tables policy.token).any fun token =>
        isDefaultPolicy tables policy = policy.representsDefaultPolicy &&
          !(policy.permWrite && isDefaultPolicy tables policy && token.autoPolicy)

/-- `TokenDomainPolicy.save` after `clean`. -/
def policyWrite (policy : TokenDomainPolicy) (adding : Bool) : Option Tables :=
  let policies := if adding then tables.policies ++ [policy]
    else tables.policies.map fun other => if other.id = policy.id then policy else other
  let saved := { tables with policies := policies }
  if (!adding || (findPolicy tables policy.id).isNone) && uniquePolicy saved &&
      foreignKeys saved && defaultPolicyPrimacy saved policy.token then
    some saved
  else none

/-- Without another request in between, the two parts are the operation of the store. -/
theorem updateToken_eq (token : Token) (policyId : Nat) :
    updateToken tables token policyId =
      if Token.clean tables token then tokenWrite tables token policyId else none := by
  unfold updateToken tokenWrite
  cases findToken tables token.id with
  | none => simp
  | some old => cases Token.clean tables token <;> simp

theorem insertPolicy_eq (policy : TokenDomainPolicy) :
    insertPolicy tables policy =
      if policyCheck tables policy true then policyWrite tables policy true else none := by
  unfold insertPolicy policyCheck policyWrite
  simp only [if_true, Bool.not_true, Bool.false_or]
  cases (getPolicy (policySet tables policy.token) none).isSome ||
    policy.representsDefaultPolicy <;> simp

theorem updatePolicy_eq (policy : TokenDomainPolicy) :
    updatePolicy tables policy =
      if policyCheck tables policy false then policyWrite tables policy false else none := by
  unfold updatePolicy policyCheck policyWrite
  cases (policySet tables policy.token).find? fun old => old.id = policy.id with
  | none => simp
  | some old =>
    cases findToken tables policy.token with
    | none => simp
    | some token =>
      simp only [Option.bind_eq_bind, Option.bind_some, Option.isSome_some, Option.any_some,
        Bool.true_and, Bool.not_false, Bool.true_or, Bool.false_eq_true, if_false,
        Bool.and_assoc]
      cases decide (isDefaultPolicy tables policy = policy.representsDefaultPolicy) with
      | false => simp
      | true => cases !(policy.permWrite && (isDefaultPolicy tables policy && token.autoPolicy)) <;>
          simp

end Parts

/-- Two requests on one token: to save it with `auto_policy`, and to create or update its default
policy with `perm_write`. -/
structure Requests where
  token : Token
  policyId : Nat
  policy : TokenDomainPolicy
  adding : Bool
  autoPolicy : token.autoPolicy = true
  represents : policy.representsDefaultPolicy = true
  permWrite : policy.permWrite = true
  sameToken : policy.token = token.id

inductive Phase where
  | waiting
  | checked
  | committed
  | rejected
  deriving DecidableEq

/-- The committed rows, and how far the two requests have come. -/
structure State where
  tables : Tables
  token : Phase
  policy : Phase

inductive Step where
  | checkToken
  | writeToken
  | checkPolicy
  | writePolicy

section Overlapping

variable (requests : Requests)

/-- A step of one of the requests, where it has come to it. -/
def perform (state : State) : Step → Option State
  | .checkToken =>
      if state.token = .waiting then
        let passed := Token.clean state.tables requests.token
        some { state with token := if passed then .checked else .rejected }
      else none
  | .writeToken =>
      if state.token = .checked then
        match tokenWrite state.tables requests.token requests.policyId with
        | some tables => some { state with tables := tables, token := .committed }
        | none => some { state with token := .rejected }
      else none
  | .checkPolicy =>
      if state.policy = .waiting then
        let passed := policyCheck state.tables requests.policy requests.adding
        some { state with policy := if passed then .checked else .rejected }
      else none
  | .writePolicy =>
      if state.policy = .checked then
        match policyWrite state.tables requests.policy requests.adding with
        | some tables => some { state with tables := tables, policy := .committed }
        | none => some { state with policy := .rejected }
      else none

/-- The token has `auto_policy` together with a default policy that permits writing. -/
def Relaxed (tables : Tables) (id : Nat) : Prop :=
  (∃ token ∈ tables.tokens, token.id = id ∧ token.autoPolicy = true) ∧
    HasDefault tables.policies id fun default => default.permWrite = true

/-- A request that commits would still pass its `clean` on the rows committed by then. -/
def CheckStillPasses (before : State) (step : Step) (after : State) : Prop :=
  match step with
  | .writeToken => after.token = .committed → Token.clean before.tables requests.token = true
  | .writePolicy => after.policy = .committed →
      policyCheck before.tables requests.policy requests.adding = true
  | _ => True

end Overlapping

section Commits

variable {tables tables' : Tables}

/-- What the commit of a token leaves behind. -/
theorem tokenWrite_spec {token : Token} {policyId : Nat}
    (done : tokenWrite tables token policyId = some tables') :
    (∃ old ∈ tables.tokens, old.id = token.id) ∧
      tables'.tokens =
        (tables.tokens.map fun other => if other.id = token.id then token else other) ∧
      (tables'.policies = tables.policies ∨
        ((tables'.policies.map key).Nodup ∧ tables'.policies =
          tables.policies ++ [⟨policyId, token.id, none, none, none, false⟩])) ∧
      (token.autoPolicy = true → HasDefault tables'.policies token.id fun _ => True) := by
  simp only [tokenWrite, Option.bind_eq_bind, Option.bind_eq_some_iff,
    Option.ite_none_right_eq_some, ensureDefault, Option.some.injEq] at done
  obtain ⟨old, found, _, ensured, inserted, checked, rfl⟩ := done
  have place := findToken_eq_some found
  have default : token.autoPolicy = true →
      HasDefault ensured.policies token.id fun _ => True := by
    intro active
    simp only [tokenAutoPolicy, active, Bool.not_true, Bool.false_or, List.any_eq_true]
      at checked
    obtain ⟨policy, member, represents⟩ := checked
    have there := mem_policySet_iff.mp member
    exact ⟨policy, there.1, there.2, represents, trivial⟩
  split at inserted
  · obtain ⟨rfl, _, unique, _⟩ := insertPolicy_spec inserted
    exact ⟨⟨old, place⟩, rfl, .inr ⟨unique, rfl⟩, default⟩
  · obtain rfl := Option.some.inj inserted
    exact ⟨⟨old, place⟩, rfl, .inl rfl, default⟩

/-- What the commit of a policy leaves behind. -/
theorem policyWrite_spec {policy : TokenDomainPolicy} {adding : Bool}
    (done : policyWrite tables policy adding = some tables') :
    tables'.tokens = tables.tokens ∧ (tables'.policies.map key).Nodup ∧
      tables'.policies = if adding then tables.policies ++ [policy]
        else tables.policies.map fun other => if other.id = policy.id then policy else other := by
  simp only [policyWrite, Option.ite_none_right_eq_some, Bool.and_eq_true,
    Option.some.injEq] at done
  obtain ⟨⟨⟨⟨_, unique⟩, _⟩, _⟩, rfl⟩ := done
  exact ⟨rfl, by simpa [uniquePolicy] using unique, rfl⟩

end Commits

section Steps

variable {requests : Requests} {state state' : State} {step : Step}

private theorem perform_cases (taken : perform requests state step = some state') :
    (∃ phase, (step = .checkToken ∨ step = .writeToken) ∧
      state' = { state with token := phase } ∧ phase ≠ .committed ∧
      (phase = .checked → Token.clean state.tables requests.token = true)) ∨
    (∃ phase, (step = .checkPolicy ∨ step = .writePolicy) ∧
      state' = { state with policy := phase } ∧ phase ≠ .committed ∧
      (phase = .checked →
        policyCheck state.tables requests.policy requests.adding = true)) ∨
    (∃ tables, step = .writeToken ∧ state.token = .checked ∧
      tokenWrite state.tables requests.token requests.policyId = some tables ∧
      state' = { state with tables := tables, token := .committed }) ∨
    ∃ tables, step = .writePolicy ∧ state.policy = .checked ∧
      policyWrite state.tables requests.policy requests.adding = some tables ∧
      state' = { state with tables := tables, policy := .committed } := by
  cases step with
  | checkToken =>
    simp only [perform, Option.ite_none_right_eq_some, Option.some.injEq] at taken
    obtain ⟨_, rfl⟩ := taken
    refine .inl ⟨_, .inl rfl, rfl, ?_, ?_⟩
    · split <;> simp
    · intro checked
      by_contra failed
      simp [failed] at checked
  | writeToken =>
    simp only [perform, Option.ite_none_right_eq_some] at taken
    obtain ⟨checked, taken⟩ := taken
    split at taken
    · exact .inr (.inr (.inl ⟨_, rfl, checked, ‹_›, (Option.some.inj taken).symm⟩))
    · exact .inl ⟨_, .inr rfl, (Option.some.inj taken).symm, by simp, by simp⟩
  | checkPolicy =>
    simp only [perform, Option.ite_none_right_eq_some, Option.some.injEq] at taken
    obtain ⟨_, rfl⟩ := taken
    refine .inr (.inl ⟨_, .inl rfl, rfl, ?_, ?_⟩)
    · split <;> simp
    · intro checked
      by_contra failed
      simp [failed] at checked
  | writePolicy =>
    simp only [perform, Option.ite_none_right_eq_some] at taken
    obtain ⟨checked, taken⟩ := taken
    split at taken
    · exact .inr (.inr (.inr ⟨_, rfl, checked, ‹_›, (Option.some.inj taken).symm⟩))
    · exact .inr (.inl ⟨_, .inr rfl, (Option.some.inj taken).symm, by simp, by simp⟩)

/-- What holds of all interleavings. -/
structure Based (requests : Requests) (state : State) : Prop where
  tokenIds : (state.tables.tokens.map Token.id).Nodup
  unique : (state.tables.policies.map key).Nodup
  default : (∃ token ∈ state.tables.tokens, token.id = requests.token.id ∧
      token.autoPolicy = true) →
    HasDefault state.tables.policies requests.token.id fun _ => True
  settled : state.token = .checked →
    (requests.token.permManageTokens && requests.token.userOverride.isSome) = false
  found : state.policy = .checked → requests.adding = false →
    (∃ old ∈ state.tables.policies, old.id = requests.policy.id ∧
      old.token = requests.token.id ∧ old.representsDefaultPolicy = true) ∧
    ∃ token ∈ state.tables.tokens, token.id = requests.token.id

private theorem based_initial (operations : List Operation) :
    Based requests ⟨reached operations, .waiting, .waiting⟩ where
  tokenIds := (sound_reached operations).tokenIds
  unique := (sound_reached operations).unique
  default := by
    rintro ⟨token, member, same, active⟩
    exact same ▸ ((sound_reached operations).auto token member active).weaken
  settled checked := by cases checked
  found checked := by cases checked

private theorem found_of_policyCheck {tables : Tables}
    (passed : policyCheck tables requests.policy false = true) :
    (∃ old ∈ tables.policies, old.id = requests.policy.id ∧
      old.token = requests.token.id ∧ old.representsDefaultPolicy = true) ∧
    ∃ token ∈ tables.tokens, token.id = requests.token.id := by
  simp only [policyCheck, Bool.false_eq_true, if_false, Bool.and_eq_true, Option.any_eq_true,
    decide_eq_true_eq] at passed
  obtain ⟨_, token, found, marked, _⟩ := passed
  have holder := findToken_eq_some found
  rw [requests.represents, isDefaultPolicy, Option.any_eq_true] at marked
  obtain ⟨default, first, same⟩ := marked
  have spec := mem_of_getPolicy_none first
  have place := mem_policySet_iff.mp spec.1
  refine ⟨⟨default, place.1, by simpa using same, place.2.trans requests.sameToken, spec.2⟩,
    token, holder.1, holder.2.trans requests.sameToken⟩

private theorem exists_replaced {tokens : List Token} {row : Token} {id : Nat}
    (there : ∃ token ∈ tokens, token.id = id) :
    ∃ token ∈ tokens.map fun other => if other.id = row.id then row else other,
      token.id = id := by
  obtain ⟨token, member, rfl⟩ := there
  by_cases same : token.id = row.id
  · exact ⟨row, row_mem_replaced member same, same.symm⟩
  · exact ⟨token, mem_replaced_of_ne member same, rfl⟩

private theorem based_of_tokenWrite {tables : Tables} (based : Based requests state)
    (done : tokenWrite state.tables requests.token requests.policyId = some tables) :
    Based requests { state with tables := tables, token := .committed } := by
  obtain ⟨_, tokens, policies, default⟩ := tokenWrite_spec done
  have kept : ∀ policy ∈ state.tables.policies, policy ∈ tables.policies := by
    intro policy member
    rcases policies with same | ⟨_, more⟩
    · exact same ▸ member
    · exact more ▸ List.mem_append_left _ member
  refine ⟨?_, ?_, fun _ => default requests.autoPolicy, by simp, ?_⟩
  · show (tables.tokens.map Token.id).Nodup
    rw [tokens, map_replaced]
    exact based.tokenIds
  · rcases policies with same | ⟨unique, _⟩
    · show (tables.policies.map key).Nodup
      rw [same]
      exact based.unique
    · exact unique
  · intro checked update
    obtain ⟨⟨old, member, spec⟩, there⟩ := based.found checked update
    refine ⟨⟨old, kept old member, spec⟩, ?_⟩
    show ∃ token ∈ tables.tokens, _
    rw [tokens]
    exact exists_replaced there

private theorem based_of_policyWrite {tables : Tables} (based : Based requests state)
    (checked : state.policy = .checked)
    (done : policyWrite state.tables requests.policy requests.adding = some tables) :
    Based requests { state with tables := tables, policy := .committed } := by
  obtain ⟨tokens, unique, policies⟩ := policyWrite_spec done
  refine ⟨tokens ▸ based.tokenIds, unique, ?_, based.settled, by simp⟩
  intro _
  refine ⟨requests.policy, ?_, requests.sameToken, requests.represents, trivial⟩
  show requests.policy ∈ tables.policies
  rw [policies]
  split
  · exact List.mem_append_right _ (List.mem_singleton_self _)
  case isFalse update =>
    obtain ⟨⟨old, member, same, _⟩, _⟩ := based.found checked (by simpa using update)
    exact row_mem_replaced member same

private theorem based_of_perform (based : Based requests state)
    (taken : perform requests state step = some state') : Based requests state' := by
  rcases perform_cases taken with ⟨phase, _, rfl, _, passed⟩ | ⟨phase, _, rfl, _, passed⟩ |
    ⟨tables, _, _, done, rfl⟩ | ⟨tables, _, checked, done, rfl⟩
  · refine ⟨based.tokenIds, based.unique, based.default, ?_, based.found⟩
    intro checked
    have clean := passed checked
    simp only [Token.clean, Bool.and_eq_true, Bool.not_eq_true'] at clean
    exact clean.1
  · refine ⟨based.tokenIds, based.unique, based.default, based.settled, ?_⟩
    intro checked update
    have agreed := passed checked
    rw [update] at agreed
    exact found_of_policyCheck agreed
  · exact based_of_tokenWrite based done
  · exact based_of_policyWrite based checked done

end Steps

section Main

variable {requests : Requests} {state state' : State} {step : Step}

private theorem not_relaxed_of_perform (based : Based requests state)
    (strict : ¬ Relaxed state.tables requests.token.id)
    (taken : perform requests state step = some state')
    (passes : CheckStillPasses requests state step state') :
    ¬ Relaxed state'.tables requests.token.id := by
  rcases perform_cases taken with ⟨phase, _, rfl, _, _⟩ | ⟨phase, _, rfl, _, _⟩ |
    ⟨tables, rfl, _, done, rfl⟩ | ⟨tables, rfl, _, done, rfl⟩
  · exact strict
  · exact strict
  · have clean := passes rfl
    obtain ⟨_, _, policies, _⟩ := tokenWrite_spec done
    rintro ⟨_, default, member, owned, represents, permits⟩
    have old : default ∈ state.tables.policies := by
      rcases policies with same | ⟨_, more⟩
      · exact same ▸ member
      · rw [more] at member
        rcases List.mem_append.mp member with old | new
        · exact old
        · rw [List.mem_singleton.mp new] at permits
          cases permits
    have restrictive :=
      restrictive_of_clean based.unique clean requests.autoPolicy default old owned represents
    exact absurd permits (by simp [restrictive])
  · have agreed := passes rfl
    obtain ⟨tokens, unique, policies⟩ := policyWrite_spec done
    rintro ⟨⟨token, member, same, active⟩, _⟩
    have there : token ∈ state.tables.tokens := tokens ▸ member
    cases kind : requests.adding with
    | true =>
      -- The default policy that comes with `auto_policy` would be there twice.
      obtain ⟨default, old, owned, represents, _⟩ := based.default ⟨token, there, same, active⟩
      simp only [kind, if_true] at policies
      rw [policies, List.map_append, List.nodup_append] at unique
      refine unique.2.2 (key default) (List.mem_map_of_mem old) (key requests.policy)
        (List.mem_singleton_self _) ?_
      have first := represents
      have second := requests.represents
      simp only [TokenDomainPolicy.representsDefaultPolicy, decide_eq_true_eq] at first second
      simp only [key, owned, requests.sameToken, first, second]
    | false =>
      rw [kind] at agreed
      simp only [policyCheck, Bool.false_eq_true, if_false, Bool.and_eq_true,
        Option.any_eq_true, decide_eq_true_eq] at agreed
      obtain ⟨_, holder, found, marked, inactive⟩ := agreed
      have place := findToken_eq_some found
      have equal : holder = token := List.inj_on_of_nodup_map based.tokenIds place.1 there
        (place.2.trans (requests.sameToken.trans same.symm))
      rw [marked, requests.represents, requests.permWrite, equal, active] at inactive
      simp at inactive

private theorem relaxed_of_perform (relaxed : Relaxed state.tables requests.token.id)
    (taken : perform requests state step = some state') :
    Relaxed state'.tables requests.token.id := by
  obtain ⟨active, default, member, owned, represents, permits⟩ := relaxed
  rcases perform_cases taken with ⟨phase, _, rfl, _, _⟩ | ⟨phase, _, rfl, _, _⟩ |
    ⟨tables, rfl, _, done, rfl⟩ | ⟨tables, rfl, _, done, rfl⟩
  · exact ⟨active, default, member, owned, represents, permits⟩
  · exact ⟨active, default, member, owned, represents, permits⟩
  · obtain ⟨⟨old, here, same⟩, tokens, policies, _⟩ := tokenWrite_spec done
    refine ⟨⟨requests.token, ?_, rfl, requests.autoPolicy⟩, default, ?_, owned, represents,
      permits⟩
    · show requests.token ∈ tables.tokens
      rw [tokens]
      exact row_mem_replaced here same
    · show default ∈ tables.policies
      rcases policies with same | ⟨_, more⟩
      · exact same ▸ member
      · exact more ▸ List.mem_append_left _ member
  · obtain ⟨tokens, _, policies⟩ := policyWrite_spec done
    refine ⟨by rwa [show State.tables _ = tables from rfl, tokens], ?_⟩
    by_cases kept : default ∈ tables.policies
    · exact ⟨default, kept, owned, represents, permits⟩
    · refine ⟨requests.policy, ?_, requests.sameToken, requests.represents, requests.permWrite⟩
      show requests.policy ∈ tables.policies
      rw [policies] at kept ⊢
      split at kept
      · exact absurd (List.mem_append_left _ member) kept
      · rw [if_neg ‹_›]
        by_cases same : default.id = requests.policy.id
        · exact row_mem_replaced member same
        · exact absurd (mem_replaced_of_ne member same) kept

private theorem relaxed_of_check_fails (based : Based requests state)
    (taken : perform requests state step = some state')
    (fails : ¬ CheckStillPasses requests state step state') :
    Relaxed state'.tables requests.token.id := by
  rcases perform_cases taken with ⟨phase, own, rfl, open_, _⟩ | ⟨phase, own, rfl, open_, _⟩ |
    ⟨tables, rfl, checked, done, rfl⟩ | ⟨tables, rfl, checked, done, rfl⟩
  · rcases own with rfl | rfl
    · exact absurd trivial fails
    · exact absurd (fun committed => absurd committed open_) fails
  · rcases own with rfl | rfl
    · exact absurd trivial fails
    · exact absurd (fun committed => absurd committed open_) fails
  · have unclean : ¬ Token.clean state.tables requests.token = true :=
      fun clean => fails fun _ => clean
    simp only [Token.clean, based.settled checked, requests.autoPolicy, Bool.not_false,
      Bool.not_true, Bool.true_and, Bool.false_or, Bool.not_eq_true', Bool.not_eq_false,
      Option.any_eq_true] at unclean
    obtain ⟨default, first, permits⟩ := unclean
    have spec := mem_of_getPolicy_none first
    have place := mem_policySet_iff.mp spec.1
    obtain ⟨⟨old, here, same⟩, tokens, policies, _⟩ := tokenWrite_spec done
    refine ⟨⟨requests.token, ?_, rfl, requests.autoPolicy⟩, default, ?_, place.2, spec.2, permits⟩
    · show requests.token ∈ tables.tokens
      rw [tokens]
      exact row_mem_replaced here same
    · show default ∈ tables.policies
      rcases policies with same | ⟨_, more⟩
      · exact same ▸ place.1
      · exact more ▸ List.mem_append_left _ place.1
  · have disagrees : ¬ policyCheck state.tables requests.policy requests.adding = true :=
      fun agreed => fails fun _ => agreed
    obtain ⟨tokens, _, policies⟩ := policyWrite_spec done
    cases kind : requests.adding with
    | true => simp [policyCheck, kind, requests.represents] at disagrees
    | false =>
      obtain ⟨⟨old, member, same, owned, represents⟩, holder, there, held⟩ :=
        based.found checked kind
      -- The row and the token are there, and the policy is the default policy still.
      have listed : old ∈ policySet state.tables requests.policy.token :=
        mem_policySet_iff.mpr ⟨member, owned.trans requests.sameToken.symm⟩
      have marked : isDefaultPolicy state.tables requests.policy = true := by
        have mark := isDefaultPolicy_of_represents based.unique member represents
        simpa only [isDefaultPolicy, owned, requests.sameToken, same] using mark
      have found : findToken state.tables requests.policy.token = some holder := by
        rw [requests.sameToken, ← held]
        exact findToken_of_mem based.tokenIds there
      have row : ((policySet state.tables requests.policy.token).find? fun old =>
          old.id = requests.policy.id).isSome := by
        rw [List.find?_isSome]
        exact ⟨old, listed, by simpa using same⟩
      simp only [policyCheck, kind, Bool.false_eq_true, if_false, row, found, Option.any_some,
        marked, requests.represents, requests.permWrite, Bool.true_and, decide_true,
        Bool.not_eq_true', Bool.not_eq_false] at disagrees
      refine ⟨⟨holder, tokens ▸ there, held, disagrees⟩, requests.policy, ?_,
        requests.sameToken, requests.represents, requests.permWrite⟩
      show requests.policy ∈ tables.policies
      rw [policies, kind]
      exact row_mem_replaced member same

private theorem relaxed_of_run {steps : List Step} {final : State}
    (relaxed : Relaxed state.tables requests.token.id)
    (run : steps.foldlM (perform requests) state = some final) :
    Relaxed final.tables requests.token.id :=
  Library.Runs.foldlM_preserves
    (P := fun state => Relaxed state.tables requests.token.id)
    (fun _ _ _ holds taken => relaxed_of_perform holds taken) relaxed run

private theorem checks_of_not_relaxed {steps : List Step} :
    ∀ {state final : State}, Based requests state →
      steps.foldlM (perform requests) state = some final →
      ¬ Relaxed final.tables requests.token.id →
      Along (perform requests) (CheckStillPasses requests) state steps := by
  induction steps with
  | nil =>
    intro state final _ _ _
    trivial
  | cons step steps ih =>
    intro state final based run strict next taken
    simp only [List.foldlM_cons, taken, Option.bind_eq_bind, Option.bind_some] at run
    refine ⟨?_, ih (based_of_perform based taken) run strict⟩
    by_contra fails
    exact strict (relaxed_of_run (relaxed_of_check_fails based taken fails) run)

private theorem not_relaxed_of_checks {steps : List Step} :
    ∀ {state final : State}, Based requests state →
      ¬ Relaxed state.tables requests.token.id →
      steps.foldlM (perform requests) state = some final →
      Along (perform requests) (CheckStillPasses requests) state steps →
      ¬ Relaxed final.tables requests.token.id := by
  induction steps with
  | nil =>
    intro state final _ strict run _
    simp only [List.foldlM_nil, Option.pure_def, Option.some.injEq] at run
    exact run ▸ strict
  | cons step steps ih =>
    intro state final based strict run checks
    simp only [List.foldlM_cons, Option.bind_eq_bind, Option.bind_eq_some_iff] at run
    obtain ⟨next, taken, rest⟩ := run
    obtain ⟨passes, later⟩ := checks next taken
    exact ih (based_of_perform based taken)
      (not_relaxed_of_perform based strict taken passes) rest later

/-- From every state that the operations on tokens and policies reach, and for every interleaving
of the two requests: the token ends up without `auto_policy` or with a restrictive default policy
if and only if every commit would still pass the check that came before it. -/
theorem not_relaxed_iff (operations : List Operation) (requests : Requests) (steps : List Step)
    (final : State) (run : steps.foldlM (perform requests)
      ⟨reached operations, .waiting, .waiting⟩ = some final) :
    ¬ Relaxed final.tables requests.token.id ↔
      Along (perform requests) (CheckStillPasses requests)
        ⟨reached operations, .waiting, .waiting⟩ steps := by
  have based : Based requests ⟨reached operations, .waiting, .waiting⟩ :=
    based_initial operations
  constructor
  · exact checks_of_not_relaxed based run
  · apply not_relaxed_of_checks based _ run
    have sound := sound_reached operations
    rintro ⟨⟨token, member, same, active⟩, default, here, owned, represents, permits⟩
    obtain ⟨other, there, owned', represents', restrictive⟩ := sound.auto token member active
    have equal := default_unique sound.unique there here (owned'.trans (same.trans owned.symm))
      represents' represents
    rw [equal, permits] at restrictive
    cases restrictive

/-- A token without policies, and a relaxed default policy that is created for it. -/
def creation : Requests :=
  ⟨⟨1, 7, none, none, false, false, false, true⟩, 2, ⟨1, 1, none, none, none, true⟩, true,
    rfl, rfl, rfl, rfl⟩

/-- One request after the other: the policy is rejected, as there is a default policy by then. -/
theorem creation_in_turn :
    ∃ final, [Step.checkToken, .writeToken, .checkPolicy, .writePolicy].foldlM (perform creation)
        ⟨reached [.createToken ⟨1, 7, none, none, false, false, false, false⟩ 0], .waiting,
          .waiting⟩ = some final ∧
      (¬ Relaxed final.tables 1 ↔ Along (perform creation) (CheckStillPasses creation)
        ⟨reached [.createToken ⟨1, 7, none, none, false, false, false, false⟩ 0], .waiting,
          .waiting⟩ [.checkToken, .writeToken, .checkPolicy, .writePolicy]) :=
  ⟨_, rfl, not_relaxed_iff _ creation _ _ rfl⟩

/-- Both requests check before the policy is committed, and then the token is. -/
theorem relaxed_by_overlap :
    ¬ ∀ (operations : List Operation) (requests : Requests) (steps : List Step) (final : State),
      steps.foldlM (perform requests) ⟨reached operations, .waiting, .waiting⟩ = some final →
        final.token ∈ [Phase.committed, .rejected] →
        final.policy ∈ [Phase.committed, .rejected] →
        ¬ Relaxed final.tables requests.token.id := by
  intro strict
  refine strict [.createToken ⟨1, 7, none, none, false, false, false, false⟩ 0] creation
    [.checkToken, .checkPolicy, .writePolicy, .writeToken] _ rfl (List.mem_cons_self ..)
    (List.mem_cons_self ..) ⟨⟨creation.token, List.mem_cons_self .., rfl, rfl⟩, ?_⟩
  exact ⟨creation.policy, List.mem_cons_self .., rfl, rfl, rfl⟩

end Main

end DesecStack.Tokens.Overlap
