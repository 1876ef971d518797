/- module: DesecStack/Accounts/Addresses
   layer: main results
   digest: Addresses of active accounts have been confirmed, and credentials are guarded by them. -/

import DesecStack.Accounts.Lifecycle
import DesecStack.Accounts.SingleUse

set_option autoImplicit false
set_option relaxedAutoImplicit false

namespace DesecStack.Accounts.Addresses

open Library.PyText (Text)
open Actions Operations Codes Steps Lifecycle
open Signed (plainEnvironment)
open SingleUse (activation codeAfter confirmation plainEnvironment_distinguishing registered
  userSince)

section Statements

variable {Hash : Type} [DecidableEq Hash] (env : Environment Hash)

/-- The address that the code of an action goes to, as `send_email` and the serializer of
`change-email` have it. -/
def recipient (s : Store Hash) (action : Action) : Option Text :=
  (s.findUser action.user).map fun user =>
    match action with
    | .changeEmail _ newEmail => if newEmail = [] then user.email else newEmail
    | _ => user.email

/-- The state after some operations. -/
abbrev stateAfter (operations : List (Operation Hash)) : Store Hash :=
  run env operations (Store.empty Hash)

/-- One of the operations has sent the code for the first time, to this address. -/
def Sent (operations : List (Operation Hash)) (code : Code Hash) (address : Text) : Prop :=
  ∃ earlier operation later, operations = earlier ++ operation :: later ∧
    ¬ Out (stateAfter env earlier) code ∧ Out (stateAfter env (earlier ++ [operation])) code ∧
    recipient (stateAfter env (earlier ++ [operation])) code.action = some address

/-- A code that was sent to the address of the user has been redeemed, for an activation or for a
change to this address. -/
def Confirmed (operations : List (Operation Hash)) (user : User) : Prop :=
  ∃ earlier code r later, operations = earlier ++ .redeem code r :: later ∧
    Redeems env (stateAfter env earlier) (.redeem code r) code r ∧
    (code.action.isActivation = true ∧ code.action.user = user.id ∨
      code.action = .changeEmail user.id user.email) ∧
    Sent env earlier code user.email

end Statements

section Runs

variable {Hash : Type} [DecidableEq Hash] {env : Environment Hash}

private theorem stateAfter_append (operations later : List (Operation Hash)) :
    stateAfter env (operations ++ later) = run env later (stateAfter env operations) :=
  List.foldl_append

private theorem stateAfter_single (operations : List (Operation Hash))
    (operation : Operation Hash) :
    stateAfter env (operations ++ [operation]) = step env (stateAfter env operations) operation :=
  stateAfter_append operations [operation]

theorem Sent.append {operations : List (Operation Hash)} {code : Code Hash} {address : Text}
    (sent : Sent env operations code address) (more : List (Operation Hash)) :
    Sent env (operations ++ more) code address := by
  obtain ⟨earlier, operation, later, rfl, sent⟩ := sent
  exact ⟨earlier, operation, later ++ more, by rw [List.append_assoc, List.cons_append], sent⟩

private theorem Confirmed.append {operations : List (Operation Hash)} {user : User}
    (confirmed : Confirmed env operations user) (more : List (Operation Hash)) :
    Confirmed env (operations ++ more) user := by
  obtain ⟨earlier, code, r, later, rfl, confirmed⟩ := confirmed
  exact ⟨earlier, code, r, later ++ more, by rw [List.append_assoc, List.cons_append], confirmed⟩

omit [DecidableEq Hash] in
private theorem recipient_eq {s : Store Hash} {action : Action} {user : User}
    (found : s.findUser action.user = some user)
    (other : ∀ target newEmail, action ≠ .changeEmail target newEmail) :
    recipient s action = some user.email := by
  rw [recipient, found]
  cases action with
  | changeEmail target newEmail => exact absurd rfl (other target newEmail)
  | _ => rfl

variable (distinguishing : Distinguishing env)

include distinguishing

private theorem sound_stateAfter (operations : List (Operation Hash)) :
    Sound env (stateAfter env operations) := sound_run distinguishing operations

private theorem transition_of_run (operations : List (Operation Hash))
    (operation : Operation Hash) :
    Transition env (stateAfter env operations) operation
      (stateAfter env (operations ++ [operation])) := by
  rw [stateAfter_single]
  exact transition_step (sound_stateAfter distinguishing operations).tables.userIds operation

private theorem fits_of_out (operations : List (Operation Hash)) {code : Code Hash}
    (out : Out (stateAfter env operations) code) (kind : code.action.isUserAction = true) :
    ∃ earlier operation later, operations = earlier ++ operation :: later ∧
      ¬ Out (stateAfter env earlier) code ∧ Out (stateAfter env (earlier ++ [operation])) code ∧
      Fits env (stateAfter env (earlier ++ [operation])) code := by
  induction operations using List.reverseRecOn with
  | nil => rcases out with issued | mailed <;> contradiction
  | append_singleton operations operation ih =>
    by_cases before : Out (stateAfter env operations) code
    · obtain ⟨earlier, sending, later, rfl, sent⟩ := ih before
      exact ⟨earlier, sending, later ++ [operation],
        by rw [List.append_assoc, List.cons_append], sent⟩
    · rcases (transition_of_run distinguishing operations operation).codes code out with
        old | other | fits
      · exact absurd old before
      · rw [kind] at other
        cases other
      · exact ⟨operations, operation, [], rfl, before, out, fits⟩

/-- The first row of an id is the only one. -/
theorem findUser_of_mem {operations : List (Operation Hash)} {user : User}
    (member : user ∈ (stateAfter env operations).users) :
    (stateAfter env operations).findUser user.id = some user := by
  have keyed := (sound_stateAfter distinguishing operations).tables.userIds
  cases found : (stateAfter env operations).findUser user.id with
  | none =>
    have absent := List.find?_eq_none.mp found user member
    simp at absent
  | some other =>
    obtain ⟨there, same⟩ := mem_of_findUser found
    rw [keyed other there user member same]

/-- A valid code was sent to the address that it would be sent to now. -/
theorem sent_to_current (operations : List (Operation Hash)) {code : Code Hash} {address : Text}
    (out : Out (stateAfter env operations) code) (kind : code.action.isUserAction = true)
    (valid : validates env (stateAfter env operations) code = true)
    (receives : recipient (stateAfter env operations) code.action = some address) :
    Sent env operations code address := by
  obtain ⟨earlier, operation, later, split, new, sent, row, there, own, dated⟩ :=
    fits_of_out distinguishing operations out kind
  refine ⟨earlier, operation, later, split, new, sent, ?_⟩
  obtain ⟨user, member, same, datedNow⟩ := dated_of_state (state_of_validates valid) kind
  have times := (dated_inj distinguishing dated datedNow).1
  have sound := sound_stateAfter distinguishing (earlier ++ [operation])
  have follows : Follows (stateAfter env (earlier ++ [operation])) (stateAfter env operations) := by
    rw [split, List.append_cons earlier operation later, stateAfter_append _ later]
    exact (leads_run distinguishing later _ sound).2
  have given : user.id < (stateAfter env (earlier ++ [operation])).nextId :=
    (same.trans own.symm) ▸ (sound.tables.users row there).1
  obtain ⟨old, present, continues⟩ := follows.users user member given
  obtain rfl : old = row :=
    sound.tables.userIds old present row there
      (continues.id.symm.trans (same.trans own.symm))
  have email := (continues.unchanged times.symm).1
  have foundNow := findUser_of_mem distinguishing member
  have foundThen := findUser_of_mem distinguishing there
  rw [same] at foundNow
  rw [own] at foundThen
  rw [recipient, foundNow] at receives
  rw [recipient, foundThen, ← receives, Option.map_some, Option.map_some, email]

/-- An active account has an address to which a code was sent that has been redeemed since, to
activate the account or to change its address to this one. -/
theorem addresses_confirmed (operations : List (Operation Hash)) (user : User)
    (member : user ∈ (stateAfter env operations).users) (active : user.isActive = some true) :
    Confirmed env operations user := by
  induction operations using List.reverseRecOn generalizing user with
  | nil => cases member
  | append_singleton operations operation ih =>
    have sent {code : Code Hash} {r : Redemption} {address : Text}
        (redeems : Redeems env (stateAfter env operations) operation code r)
        (kind : code.action.isUserAction = true)
        (receives : recipient (stateAfter env operations) code.action = some address) :
        Sent env operations code address :=
      sent_to_current distinguishing operations redeems.out kind redeems.valid receives
    have now {code : Code Hash} {r : Redemption}
        (redeems : Redeems env (stateAfter env operations) operation code r)
        (kind : code.action.isActivation = true ∧ code.action.user = user.id ∨
          code.action = .changeEmail user.id user.email)
        (addressed : Sent env operations code user.email) :
        Confirmed env (operations ++ [operation]) user := by
      have redeeming := redeems.now
      subst redeeming
      exact ⟨operations, code, r, [], rfl, redeems, kind, addressed⟩
    rcases (transition_of_run distinguishing operations operation).users user member with
      ⟨before, there, same, evolves⟩ | ⟨-, pending⟩
    · have found := findUser_of_mem distinguishing there
      have earlier (email : user.email = before.email) (active : before.isActive = some true) :
          Confirmed env (operations ++ [operation]) user := by
        obtain ⟨first, code, r, later, split, redeems, kind, sent⟩ :=
          (ih before there active).append [operation]
        rw [← same, ← email] at kind
        rw [← email] at sent
        exact ⟨first, code, r, later, split, redeems, kind, sent⟩
      cases evolves with
      | same unchanged => exact earlier unchanged.email (unchanged.isActive.symm.trans active)
      | locked names _ _ _ isActive =>
        rw [active] at isActive
        cases isActive
      | activated code r redeems kind own _ email =>
        refine now redeems (Or.inl ⟨kind, own.trans same.symm⟩) (sent redeems ?_ ?_)
        · cases action : code.action <;> simp_all [Action.isActivation, Action.isUserAction]
        · rw [email]
          refine recipient_eq (own ▸ found) fun target newEmail other => ?_
          rw [other] at kind
          cases kind
      | moved code r redeems kind address =>
        refine now redeems (Or.inr (same ▸ kind)) (sent redeems (by rw [kind]; rfl) ?_)
        rw [recipient, kind, show (Action.changeEmail before.id user.email).user
          = before.id from rfl,
          found]
        exact congrArg some (if_neg address)
      | reset code r redeems kind activeBefore email => exact earlier email activeBefore
    · rw [pending] at active
      cases active

/-- In every run, operations change credentials and the status of an account, or remove it, only
in certain ways, and the codes for this were sent to the address that the account then has, or to
the address that it is to have. -/
theorem credentials_guarded (operations : List (Operation Hash)) (operation : Operation Hash)
    (before : User) (member : before ∈ (stateAfter env operations).users) :
    (∀ after ∈ (stateAfter env (operations ++ [operation])).users, after.id = before.id →
      Evolves env (stateAfter env operations) operation before after) ∧
    ((∀ after ∈ (stateAfter env (operations ++ [operation])).users, after.id ≠ before.id) →
      Departs env (stateAfter env operations) operation before) ∧
    ∀ code r address, Redeems env (stateAfter env operations) operation code r →
      code.action.isUserAction = true →
      recipient (stateAfter env operations) code.action = some address →
      Sent env operations code address := by
  have tables := (sound_stateAfter distinguishing operations).tables
  have transition := transition_of_run distinguishing operations operation
  refine ⟨fun after there same => ?_, fun gone => ?_,
    fun code r address redeems kind receives => ?_⟩
  · rcases transition.users after there with ⟨old, present, again, evolves⟩ | ⟨new, -⟩
    · rwa [tables.userIds before member old present (same.symm.trans again)]
    · have given := (tables.users before member).1
      omega
  · rcases transition.stay before member with departs | ⟨after, there, same⟩
    · exact departs
    · exact absurd same (gone after there)
  · exact sent_to_current distinguishing operations redeems.out kind redeems.valid receives

/-- The credentials and the status of a locked account never change again. -/
theorem locked_frozen (operations later : List (Operation Hash)) (before after : User)
    (member : before ∈ (stateAfter env operations).users) (locked : before.isActive = some false)
    (there : after ∈ (stateAfter env (operations ++ later)).users) (same : after.id = before.id) :
    Same before after := by
  induction later using List.reverseRecOn generalizing after with
  | nil =>
    rw [List.append_nil] at there
    have keyed := (sound_stateAfter distinguishing operations).tables.userIds
    rw [keyed after there before member same]
    exact Same.refl before
  | append_singleton later operation ih =>
    rw [← List.append_assoc] at there
    have sound := sound_stateAfter distinguishing operations
    have nextId : (stateAfter env operations).nextId ≤ (stateAfter env (operations ++ later)).nextId
        := by
      rw [stateAfter_append]
      exact (leads_run distinguishing later _ sound).2.nextId
    rcases (transition_of_run distinguishing (operations ++ later) operation).users after there with
      ⟨mid, present, again, evolves⟩ | ⟨new, -⟩
    · have kept := ih mid present (again.symm.trans same)
      have stillLocked := kept.isActive.trans locked
      refine kept.trans ?_
      cases evolves with
      | same unchanged => exact unchanged
      | locked names _ email password isActive =>
        exact ⟨again, email, password, isActive.trans stillLocked.symm⟩
      | activated code r redeems kind own unlocked => exact absurd stillLocked unlocked
      | moved code r redeems kind address active =>
        rw [stillLocked] at active
        cases active
      | reset code r redeems kind active =>
        rw [stillLocked] at active
        cases active
    · have given := (sound.tables.users before member).1
      omega

end Runs

section Sample

/-- The user has confirmed the account and asks to change the address. -/
private def asking : List (Operation Text) :=
  registered ++ [.redeem activation confirmation, .requestEmailChange 0 "new@mail.test".toList]

private def moving : Code Text := codeAfter asking (.changeEmail 0 "new@mail.test".toList)

private def moved : User := { userSince "password".toList 3 with email := "new@mail.test".toList }

theorem addresses_confirmed_moved : Confirmed plainEnvironment
    (asking ++ [.redeem moving confirmation]) moved :=
  addresses_confirmed plainEnvironment_distinguishing _ moved (by decide +kernel) rfl

theorem credentials_guarded_moved :
    Evolves plainEnvironment (stateAfter plainEnvironment asking) (.redeem moving confirmation)
      (userSince "password".toList 2) moved ∧
    Sent plainEnvironment asking moving "new@mail.test".toList := by
  obtain ⟨evolves, -, sent⟩ := credentials_guarded plainEnvironment_distinguishing asking
    (.redeem moving confirmation) (userSince "password".toList 2) (by decide +kernel)
  refine ⟨evolves moved (by decide +kernel) rfl, ?_⟩
  exact sent moving confirmation _ ⟨rfl, Or.inl (by decide +kernel), rfl, by decide +kernel⟩ rfl
    (by decide +kernel)

private def locked : User := { userSince "password".toList 2 with isActive := some false }

/-- The account is locked, and a code from before is redeemed. -/
theorem locked_frozen_asking :
    ∃ after ∈ (stateAfter plainEnvironment (asking ++ [.stopAbuse ["user@mail.test".toList]] ++
      [.redeem moving confirmation])).users, Same locked after := by
  refine ⟨locked, by decide +kernel, ?_⟩
  exact locked_frozen plainEnvironment_distinguishing
    (asking ++ [.stopAbuse ["user@mail.test".toList]]) [.redeem moving confirmation] locked locked
    (by decide +kernel) rfl (by decide +kernel) rfl

end Sample

end DesecStack.Accounts.Addresses
