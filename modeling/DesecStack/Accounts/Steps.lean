/- module: DesecStack/Accounts/Steps
   source: api/desecapi/views/users.py, api/desecapi/views/authenticated_actions.py,
     api/desecapi/views/mfa.py, api/desecapi/views/tokens.py, api/desecapi/management/commands
   digest: Requests, redemptions and commands, one by one and in runs, keep what codes depend on. -/

import DesecStack.Accounts.Preserved

set_option autoImplicit false
set_option relaxedAutoImplicit false

namespace DesecStack.Accounts.Steps

open Library.PyText (Text)
open Domains.Scavenge (RenewalState)
open Domains.Renewal (stirred_written stirred_unwritten stirred_publishedAt)
open Actions Operations Codes Preserved

section Tokens

variable {Hash : Type} {env : Environment Hash} (distinguishing : Distinguishing env)

include distinguishing

private theorem leads_tokens (s : Store Hash) (tokens : List Token) :
    Leads env s { s with tokens } :=
  leads_same distinguishing rfl rfl rfl le_rfl le_rfl rfl rfl

private theorem leads_insertToken {owner : Nat} {name : Text} {mfa : Option Bool}
    {permCreateDomain permDeleteDomain permManageTokens autoPolicy : Bool}
    {maxAge maxUnusedPeriod : Option Nat} (s : Store Hash) :
    Leads env s (insertToken env owner name mfa permCreateDomain permDeleteDomain permManageTokens
      autoPolicy maxAge maxUnusedPeriod s) :=
  leads_same distinguishing rfl rfl rfl (Nat.le_succ _) (Nat.le_succ _) rfl rfl

private theorem leads_saveToken {policiesAdmit : Bool} {token : Token} {s s' : Store Hash}
    (saved : saveToken policiesAdmit token s = some s') : Leads env s s' := by
  rw [saveToken] at saved
  split at saved
  · obtain rfl := Option.some.inj saved
    exact leads_tokens distinguishing s _
  · cases saved

private theorem leads_stepUp (policiesAdmit : Bool) (id : Nat) (s : Store Hash) :
    Leads env s (stepUp policiesAdmit id s) := by
  refine leads_getD fun s' saved => ?_
  obtain ⟨token, _, saved⟩ := Option.bind_eq_some_iff.mp saved
  exact leads_saveToken distinguishing saved

end Tokens

section Redemptions

variable {Hash : Type} {env : Environment Hash} (distinguishing : Distinguishing env)

private theorem leads_atomically {s : Store Hash} {result : Option (Store Hash)}
    (done : ∀ s', result = some s' → Leads env s s') : Leads env s (atomically s result).1 := by
  cases result with
  | none => exact Leads.refl s
  | some s' => exact done s' rfl

include distinguishing

private theorem leads_changeEmail (user : Nat) (email : Text) {s s' : Store Hash}
    (changed : changeEmail env user email s = some s') : Leads env s s' := by
  rw [changeEmail] at changed
  split at changed
  · cases changed
  · obtain rfl := Option.some.inj changed
    exact leads_credentials distinguishing user s (fun _ => rfl) fun _ => rfl

private theorem leads_changePassword (user : Nat) (password : Text) (s : Store Hash) :
    Leads env s (changePassword env user password s) :=
  leads_credentials distinguishing user s (fun _ => rfl) fun _ => rfl

theorem leads_act (action : Action) (r : Redemption) (s : Store Hash) :
    Leads env s (act env action r s).1 := by
  cases action with
  | changeOutreachPreference user outreachPreference =>
    exact leads_saveUser distinguishing user s (fun _ => rfl) (fun _ => ⟨rfl, rfl, rfl⟩)
      fun _ decided => decided
  | activate user => exact leads_activate distinguishing user s
  | activateWithOverrideToken user token =>
    have saved : Leads env s
        (saveUser user (fun row => { row with outreachPreference := r.outreachPreference }) s) :=
      leads_saveUser distinguishing user s (fun _ => rfl) (fun _ => ⟨rfl, rfl, rfl⟩)
        fun _ decided => decided
    refine (saved.trans (leads_activate distinguishing user _)).trans
      (leads_atomically fun s' done => ?_)
    obtain ⟨row, _, saved⟩ := Option.bind_eq_some_iff.mp done
    exact leads_saveToken distinguishing saved
  | changeEmail user newEmail =>
    exact leads_atomically fun s' done => leads_changeEmail distinguishing user newEmail done
  | confirmAccount => exact Leads.refl s
  | createTotp user name =>
    exact leads_atomically fun s' done => leads_createFactor distinguishing user name done
  | resetPassword user => exact leads_changePassword distinguishing user r.newPassword s
  | deleteAccount user =>
    refine leads_atomically fun s' done => ?_
    have deleted : Leads env s ((deleteUser user s).getD s) := leads_deleteUser user s
    rwa [done] at deleted
  | renewDomain _ domain =>
    exact leads_stampDomain distinguishing domain s fun domain bounded =>
      advances_renewalState bounded .fresh

theorem leads_finalize (user : Nat) (domain : Option Text) (r : Redemption) (s : Store Hash) :
    Leads env s (finalize env user domain r s) := by
  cases domain with
  | none =>
    rw [finalize]
    split
    · exact leads_issue _ s fun _ => timely_of_other rfl nofun
    · exact Leads.refl s
  | some name =>
    rw [finalize]
    cases r.domain with
    | unavailable => exact leads_deleteUser user s
    | raises => exact Leads.refl s
    | created isLocallyRegistrable delegated =>
      have created := leads_createDomain distinguishing name user isLocallyRegistrable s
      dsimp only
      split
      · exact created.trans (leads_insertToken distinguishing _)
      · exact created

private theorem leads_perform (code : Code Hash) (r : Redemption) (s : Store Hash) :
    Leads env s (perform env code r s) := by
  have acted := leads_act distinguishing code.action r s
  rw [perform]
  split
  · next s' same =>
    rw [same] at acted
    exact acted
  · next s' same =>
    rw [same] at acted
    have done : Leads env s { s' with redeemed := s'.redeemed ++ [code] } :=
      acted.trans (leads_same distinguishing rfl rfl rfl le_rfl le_rfl rfl rfl)
    split
    · exact done.trans (leads_finalize distinguishing _ _ _ _)
    · exact done

private theorem leads_redeem [DecidableEq Hash] (code : Code Hash) (r : Redemption)
    (s : Store Hash) :
    Leads env s (redeem env code r s) := by
  rw [redeem]
  split
  · exact Leads.refl s
  · split
    · exact leads_perform distinguishing code r s
    · exact Leads.refl s

end Redemptions

section Views

variable {Hash : Type} {env : Environment Hash}

private theorem leads_requestDeletion (user : Nat) (s : Store Hash) :
    Leads env s (requestDeletion env user s) := by
  rw [requestDeletion]
  split
  · exact Leads.refl s
  · exact leads_issue _ s fun _ => timely_of_other rfl nofun

private theorem leads_requestEmailChange (user : Nat) (newEmail : Text) (s : Store Hash) :
    Leads env s (requestEmailChange env user newEmail s) := by
  rw [requestEmailChange]
  split
  · exact Leads.refl s
  · exact leads_issue _ s fun _ => timely_of_other rfl nofun

private theorem leads_requestPasswordReset (email : Text) (s : Store Hash) :
    Leads env s (requestPasswordReset env email s) := by
  rw [requestPasswordReset]
  split
  · split
    · exact leads_issue _ s fun _ => timely_of_other rfl nofun
    · exact Leads.refl s
  · exact Leads.refl s

variable (distinguishing : Distinguishing env)

include distinguishing

private theorem leads_invite {email : Text} {password : Option Text}
    {needsCaptcha outreachPreference : Bool} {action : Action} (s : Store Hash)
    (user : action.user = s.nextId)
    (totp : ∀ user name, action ≠ .createTotp user name) :
    Leads env s (issue env action
      (createUser env email password needsCaptcha outreachPreference s)) := by
  intro sound
  refine ((leads_createUser distinguishing email password needsCaptcha outreachPreference s).trans
    (leads_issue action _ fun _ => ⟨?_, fun user name kind => absurd kind (totp user name)⟩)) sound
  intro _ row member same
  rcases List.mem_append.mp member with old | new
  · exact absurd (same.trans user) (sound.tables.users row old).1.ne
  · rw [List.mem_singleton.mp new]

private theorem leads_register {email : Text} {password : Option Text}
    {captcha outreachPreference : Bool}
    {domain : Option Text} (s : Store Hash) :
    Leads env s (register env email password captcha outreachPreference domain s) := by
  rw [register]
  split
  · exact Leads.refl s
  · exact leads_invite distinguishing s rfl nofun

private theorem leads_login (user : Nat) (s : Store Hash) : Leads env s (login env user s) := by
  refine Leads.trans ?_ (leads_saveUser distinguishing user _ (fun _ => rfl)
    (fun _ => ⟨rfl, rfl, rfl⟩) fun _ decided => decided)
  refine Leads.trans ?_ (leads_tick distinguishing _)
  refine Leads.trans ?_ (leads_insertToken distinguishing _)
  exact (leads_tick distinguishing s).trans (leads_tokens distinguishing _ _)

private theorem leads_requestFactor (user : Nat) (name : Text) (s : Store Hash) :
    Leads env s (requestFactor env user name s) := by
  rw [requestFactor]
  split
  · exact Leads.refl s
  · split
    · exact leads_getD fun s' created => leads_createFactor distinguishing user name created
    · next off =>
      refine leads_issue _ s fun _ => ⟨nofun, fun other _ same => ?_⟩
      cases same
      exact Bool.eq_false_of_not_eq_true off

private theorem leads_renameFactor (id : Nat) (name : Text) (s : Store Hash) :
    Leads env s (renameFactor env id name s) := by
  refine leads_getD fun s' renamed => ?_
  obtain ⟨factor, found, saved⟩ := Option.bind_eq_some_iff.mp renamed
  refine leads_saveFactor distinguishing saved ?_ ?_
  · exact fun tables => tables.factors factor (mem_of_findFactor found).1
  · exact fun tables => replaces_of_findFactor tables found rfl rfl fun used => used

private theorem leads_destroyFactor (id : Nat) (s : Store Hash) :
    Leads env s (destroyFactor env id s) := by
  rw [destroyFactor]
  split
  · next factor found => exact leads_deleteFactor distinguishing found
  · exact Leads.refl s

private theorem leads_verifyFactor (id : Nat) (code : Text) (auth : Option Nat)
    (policiesAdmit : Bool)
    (s : Store Hash) : Leads env s (verifyFactor env id code auth policiesAdmit s) := by
  rw [verifyFactor]
  split
  · exact Leads.refl s
  · next factor found =>
    dsimp only
    split
    · exact Leads.refl s
    · split
      · exact leads_tick distinguishing s
      · next s' verified =>
        have used := leads_verify distinguishing code found verified
        split
        · exact used
        · cases auth with
          | none => exact used
          | some token => exact used.trans (leads_stepUp distinguishing policiesAdmit token s')

private theorem leads_createToken {owner : Nat} {name : Text}
    {permCreateDomain permDeleteDomain permManageTokens autoPolicy : Bool}
    {maxAge maxUnusedPeriod : Option Nat} {userOverride : Option Text} (s : Store Hash) :
    Leads env s (createToken env owner name permCreateDomain permDeleteDomain permManageTokens
      autoPolicy maxAge maxUnusedPeriod userOverride s) := by
  have inserted : Leads env s (insertToken env owner name none permCreateDomain permDeleteDomain
      permManageTokens autoPolicy maxAge maxUnusedPeriod s) := leads_insertToken distinguishing s
  cases userOverride with
  | none => exact inserted
  | some email =>
    unfold createToken
    dsimp only
    split
    · exact inserted
    · exact inserted.trans (leads_invite distinguishing _ rfl nofun)

private theorem leads_updateToken {id : Nat} {name : Text}
    {permCreateDomain permDeleteDomain permManageTokens autoPolicy : Bool}
    {maxAge maxUnusedPeriod : Option Nat} {policiesAdmit : Bool} (s : Store Hash) :
    Leads env s (updateToken id name permCreateDomain permDeleteDomain permManageTokens autoPolicy
      maxAge maxUnusedPeriod policiesAdmit s) := by
  refine leads_getD fun s' updated => ?_
  obtain ⟨token, _, saved⟩ := Option.bind_eq_some_iff.mp updated
  exact leads_saveToken distinguishing saved

end Views

section Commands

variable {Hash : Type} {env : Environment Hash} (distinguishing : Distinguishing env)

include distinguishing

private theorem leads_deleteNeverActivatedUsers (s : Store Hash) :
    Leads env s (deleteNeverActivatedUsers env s) := by
  have ticked := leads_tick distinguishing s
  rw [deleteNeverActivatedUsers]
  dsimp only
  split
  · exact ticked
  · exact ticked.trans (leads_removeUsers _ _)

private theorem leads_stopAbuse (names : List Text) (s : Store Hash) :
    Leads env s (stopAbuse env names s) := by
  apply leads_mapUsers distinguishing
  · intro user
    split <;> rfl
  · intro user
    split <;> exact ⟨rfl, rfl, rfl⟩
  · intro user decided
    split
    · exact nofun
    · exact decided

private theorem leads_warnDomainDeletion (renewalState : RenewalState) (inactiveDays : Nat)
    (s : Store Hash) : Leads env s (warnDomainDeletion env renewalState inactiveDays s) := by
  refine (leads_tick distinguishing s).trans (leads_foldl (fun t domain => ?_) _ _)
  refine (leads_stampDomain distinguishing domain.id t fun row bounded => ?_).trans
    (leads_issue _ _ fun _ => timely_of_other rfl nofun)
  exact advances_renewalState bounded row.renewalState.next

private theorem leads_deleteDomains (inactiveDays : Nat) (s : Store Hash) :
    Leads env s (deleteDomains env inactiveDays s) := by
  refine (leads_tick distinguishing s).trans (leads_foldl (fun t domain => ?_) _ _)
  exact (leads_deleteDomain distinguishing domain.id t).trans (leads_deleteUser domain.owner _)

private theorem leads_scavenge (s : Store Hash) : Leads env s (scavenge env s) :=
  (((leads_renewTouchedDomains distinguishing s).trans
    (leads_warnDomainDeletion distinguishing _ _ _)).trans
    (leads_warnDomainDeletion distinguishing _ _ _)).trans (leads_deleteDomains distinguishing _ _)

omit distinguishing in
private theorem leads_outreachEmail (reason : Reason) (emails : List Text) (s : Store Hash) :
    Leads env s (outreachEmail env reason emails s) :=
  leads_foldl (fun t (user : User) => leads_mail (reason.action user.id) t) _ _

end Commands

section Runs

variable {Hash : Type} {env : Environment Hash}

private theorem leads_ite {s t : Store Hash} {condition : Prop} [Decidable condition]
    (done : Leads env s t) : Leads env s (if condition then t else s) := by
  split
  · exact done
  · exact Leads.refl s

variable [DecidableEq Hash] (distinguishing : Distinguishing env)

include distinguishing

theorem leads_step (s : Store Hash) (operation : Operation Hash) :
    Leads env s (step env s operation) := by
  cases operation with
  | register => exact leads_register distinguishing s
  | login => exact leads_ite (leads_login distinguishing _ s)
  | useToken => exact (leads_tick distinguishing s).trans (leads_tokens distinguishing _ _)
  | updateAccount user =>
    exact leads_ite (leads_saveUser distinguishing user s (fun _ => rfl)
      (fun _ => ⟨rfl, rfl, rfl⟩) fun _ decided => decided)
  | requestDeletion => exact leads_ite (leads_requestDeletion _ s)
  | requestEmailChange => exact leads_ite (leads_requestEmailChange _ _ s)
  | requestPasswordReset => exact leads_requestPasswordReset _ s
  | requestFactor => exact leads_ite (leads_requestFactor distinguishing _ _ s)
  | renameFactor => exact leads_renameFactor distinguishing _ _ s
  | destroyFactor => exact leads_destroyFactor distinguishing _ s
  | verifyFactor => exact leads_verifyFactor distinguishing _ _ _ _ s
  | createToken => exact leads_ite (leads_createToken distinguishing s)
  | updateToken => exact leads_updateToken distinguishing s
  | removeToken => exact leads_tokens distinguishing s _
  | createDomain => exact leads_ite (leads_createDomain distinguishing _ _ _ s)
  | deleteDomain => exact leads_deleteDomain distinguishing _ s
  | writeRRset id replaced =>
    rw [step]
    apply leads_stampDomain distinguishing
    exact fun domain bounded => advances_of_stirred (stirred_written _ replaced domain) bounded
  | deleteRRset id touched =>
    rw [step]
    apply leads_stampDomain distinguishing
    exact fun domain bounded => advances_of_stirred (stirred_unwritten _ touched domain) bounded
  | publish id =>
    rw [step]
    apply leads_stampDomain distinguishing
    exact fun domain bounded => advances_of_stirred (stirred_publishedAt _ domain) bounded
  | redeem => exact leads_ite (leads_redeem distinguishing _ _ s)
  | chores => exact leads_deleteNeverActivatedUsers distinguishing s
  | stopAbuse => exact leads_stopAbuse distinguishing _ s
  | scavenge => exact leads_scavenge distinguishing s
  | outreachEmail => exact leads_outreachEmail _ _ s

theorem leads_run (operations : List (Operation Hash)) (s : Store Hash) :
    Leads env s (run env operations s) :=
  leads_foldl (leads_step distinguishing) operations s

omit [DecidableEq Hash] distinguishing in
private theorem sound_empty : Sound env (Store.empty Hash) where
  tables := by constructor <;> exact nofun
  known := by rintro code (sent | sent) <;> exact absurd sent List.not_mem_nil
  regular := fun _ sent => absurd sent List.not_mem_nil

/-- Every state of a run is sound. -/
theorem sound_run (operations : List (Operation Hash)) :
    Sound env (run env operations (Store.empty Hash)) :=
  (leads_run distinguishing operations _ sound_empty).1

end Runs

end DesecStack.Accounts.Steps
