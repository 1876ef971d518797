/- module: DesecStack/Accounts/StepUp
   source: api/desecapi/views/mfa.py, api/desecapi/views/tokens.py, api/desecapi/views/users.py,
     api/desecapi/models/tokens.py
   digest: Tokens pass multi-factor authentication only with a verified code of a factor in use. -/

import DesecStack.Accounts.TokenRows

set_option autoImplicit false
set_option relaxedAutoImplicit false

namespace DesecStack.Accounts.StepUp

open Library.PyText (Text)
open Actions Operations
open Signed (plainEnvironment)
open TokenRows (alters_step)

section Runs

variable {Hash : Type} [DecidableEq Hash] (env : Environment Hash)

/-- With this operation, a code of a factor in use is verified for the token. -/
def Verified (s : Store Hash) (operation : Operation Hash) (token : Nat) : Prop :=
  ∃ factor code policiesAdmit row,
    operation = .verifyFactor factor code (some token) policiesAdmit ∧
      s.findFactor factor = some row ∧ row.totp.lastUsed.isSome = true ∧
        (verify env row code s).isSome = true

/-- Earlier in the run, a code of a factor in use was verified for the token. -/
def SteppedUp (operations : List (Operation Hash)) (token : Nat) : Prop :=
  ∃ earlier operation later, operations = earlier ++ operation :: later ∧
    Verified env (run env earlier (Store.empty Hash)) operation token

variable {env}

/-- A token that has passed MFA has done so before, or passes it with this operation. -/
theorem raised_step (s : Store Hash) (operation : Operation Hash) (token : Token)
    (member : token ∈ (step env s operation).tokens) (raised : token.mfa = some true) :
    (∃ old ∈ s.tokens, old.id = token.id ∧ old.mfa = some true) ∨
      Verified env s operation token.id := by
  rcases (alters_step s operation).tokens token member with ⟨old, there, changes⟩ | inserted
  · cases changes with
    | steppedUp factor code policiesAdmit row now found inUse verified =>
      exact Or.inr ⟨factor, code, policiesAdmit, row, now, found, inUse, verified⟩
    | _ => exact Or.inl ⟨_, there, rfl, raised⟩
  · exact absurd raised inserted.unraised

/-- A token that has passed MFA has done so in the run, with a verified code of a factor in use. -/
theorem stepped_up (operations : List (Operation Hash)) (token : Token)
    (member : token ∈ (run env operations (Store.empty Hash)).tokens)
    (raised : token.mfa = some true) : SteppedUp env operations token.id := by
  induction operations using List.reverseRecOn generalizing token with
  | nil => cases member
  | append_singleton operations operation ih =>
    rw [run, List.foldl_append] at member
    rcases raised_step _ operation token member raised with ⟨old, there, same, passed⟩ | verified
    · obtain ⟨earlier, stepping, later, rfl, verified⟩ := ih old there passed
      refine ⟨earlier, stepping, later ++ [operation], ?_, same ▸ verified⟩
      rw [List.append_assoc, List.cons_append]
    · exact ⟨operations, operation, [], rfl, verified⟩

end Runs

section Sample

private def minutely : Environment Text :=
  { plainEnvironment with
    clock := fun calls => (calls + 1) * 60000000, generateOtp := fun _ _ => "123456".toList }

private def redeemNow (operations : List (Operation Text)) (action : Action) : Operation Text :=
  .redeem ⟨action, (state minutely (run minutely operations (Store.empty Text)) action).getD []⟩
    ⟨false, none, true, "changed".toList, true, .raises⟩

/-- Two users; the second one sets up a factor. -/
private def strangers : List (Operation Text) :=
  let first : List (Operation Text) :=
    [.register "one@mail.test".toList (some "password".toList) true true none]
  let second := first ++ [redeemNow first (.activate 0 none),
    .register "two@mail.test".toList (some "password".toList) true true none]
  let third := second ++ [redeemNow second (.activate 1 none), .requestFactor 1 "phone".toList]
  third ++ [redeemNow third (.createTotp 1 "phone".toList),
    .verifyFactor 2 "123456".toList none true]

/-- The first user logs in, and the token passes MFA with the factor of the second. -/
theorem stepped_up_stranger :
    let operations := strangers ++ [.login 0, .verifyFactor 2 "123456".toList (some 3) true]
    (∃ token ∈ (run minutely operations (Store.empty Text)).tokens, token.owner = 0 ∧
      token.mfa = some true ∧ SteppedUp minutely operations token.id) ∧
    ∀ factor ∈ (run minutely operations (Store.empty Text)).factors, factor.user = 1 := by
  intro operations
  have passed : ∃ token ∈ (run minutely operations (Store.empty Text)).tokens,
      token.owner = 0 ∧ token.mfa = some true := by
    decide +kernel
  obtain ⟨token, member, owned, raised⟩ := passed
  exact ⟨⟨token, member, owned, raised, stepped_up operations token member raised⟩,
    by decide +kernel⟩

end Sample

end DesecStack.Accounts.StepUp
