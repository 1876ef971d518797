/- module: DesecStack/Accounts/Preserved
   source: api/desecapi/models/users.py, api/desecapi/models/mfa.py, api/desecapi/models/domains.py,
     api/desecapi/views, api/desecapi/management/commands
   digest: Every account operation keeps the tables sound and what codes depend on. -/

import DesecStack.Accounts.Codes

set_option autoImplicit false
set_option relaxedAutoImplicit false

namespace DesecStack.Accounts.Preserved

open Library.PyText (Text)
open Domains.Scavenge (Domain RenewalState)
open Domains.Renewal (Bounded Stirred updated)
open Actions Operations Codes

/-- From a sound state to a sound state that keeps what codes depend on. -/
def Leads {Hash : Type} (env : Environment Hash) (s s' : Store Hash) : Prop :=
  Sound env s → Sound env s' ∧ Follows s s'

section Leads

variable {Hash : Type} {env : Environment Hash} {s t u : Store Hash}

theorem Leads.refl (s : Store Hash) : Leads env s s := fun sound => ⟨sound, Follows.refl s⟩

theorem Leads.trans (first : Leads env s t) (second : Leads env t u) : Leads env s u := by
  intro sound
  obtain ⟨mid, earlier⟩ := first sound
  obtain ⟨last, later⟩ := second mid
  exact ⟨last, earlier.trans later⟩

theorem leads_foldl {α : Type} {f : Store Hash → α → Store Hash}
    (each : ∀ s a, Leads env s (f s a)) : ∀ (l : List α) (s : Store Hash),
      Leads env s (l.foldl f s) := by
  intro l
  induction l with
  | nil => exact Leads.refl
  | cons a l ih => exact fun s => (each s a).trans (ih (f s a))

theorem leads_getD {result : Option (Store Hash)}
    (done : ∀ s', result = some s' → Leads env s s') : Leads env s (result.getD s) := by
  cases result with
  | none => exact Leads.refl s
  | some s' => exact done s' rfl

private theorem leads_of_tables (tables : Tables env s → Tables env t ∧ Follows s t)
    (issued : t.issued = s.issued) (mailed : t.mailed = s.mailed) : Leads env s t := by
  intro sound
  obtain ⟨later, follows⟩ := tables sound.tables
  refine ⟨⟨later, ?_, ?_⟩, follows⟩
  · rw [issued, mailed]
    exact fun code sent => (sound.known code sent).follows follows
  · rw [issued]
    exact fun code sent =>
      Regular.follows (sound.known code (.inl sent)) (sound.regular code sent) follows

end Leads

section Factors

variable {Hash : Type} {s s' : Store Hash} {factor other : Factor} {factors : List Factor}

private theorem mfaEnabled_eq_false_iff {user : Nat} : s.mfaEnabled user = false ↔
    ∀ factor ∈ s.factors, factor.user = user → factor.totp.lastUsed.isSome = false := by
  simp [Store.mfaEnabled]

private theorem mem_putFactor (member : other ∈ putFactor factor factors) :
    other = factor ∨ other ∈ factors ∧ other.id ≠ factor.id := by
  rw [putFactor] at member
  split at member
  · obtain ⟨old, there, rfl⟩ := List.mem_map.mp member
    split
    · exact .inl rfl
    · next different => exact .inr ⟨there, different⟩
  · next absent =>
    rcases List.mem_append.mp member with old | new
    · refine .inr ⟨old, fun same => absent ?_⟩
      exact List.any_eq_true.mpr ⟨other, old, decide_eq_true same⟩
    · exact .inl (List.mem_singleton.mp new)

private theorem self_mem_putFactor : factor ∈ putFactor factor factors := by
  rw [putFactor]
  split
  · next present =>
    obtain ⟨old, there, same⟩ := List.any_eq_true.mp present
    exact List.mem_map.mpr ⟨old, there, if_pos (of_decide_eq_true same)⟩
  · exact List.mem_append_right _ (List.mem_singleton_self factor)

private theorem mem_putFactor_of_ne (member : other ∈ factors) (different : other.id ≠ factor.id) :
    other ∈ putFactor factor factors := by
  rw [putFactor]
  split
  · exact List.mem_map.mpr ⟨other, member, if_neg different⟩
  · exact List.mem_append_left _ member

private theorem keyed_putFactor (keyed : Keyed Factor.id factors) :
    Keyed Factor.id (putFactor factor factors) := by
  intro one member two there same
  rcases mem_putFactor member with rfl | ⟨old, different⟩
  · rcases mem_putFactor there with rfl | ⟨_, unlike⟩
    · rfl
    · exact absurd same.symm unlike
  · rcases mem_putFactor there with rfl | ⟨otherOld, _⟩
    · exact absurd same different
    · exact keyed one old two otherOld same

/-- A factor that is saved replaces one of its user that it is not used less than. -/
def Replaces (factor : Factor) (factors : List Factor) : Prop :=
  ∀ old ∈ factors, old.id = factor.id →
    old.user = factor.user ∧ (old.totp.lastUsed.isSome → factor.totp.lastUsed.isSome)

private theorem factorsKept_putFactor (replaces : Replaces factor s.factors)
    (put : s'.factors = putFactor factor s.factors) {user : Nat}
    (concerned : user = factor.user → s.mfaEnabled user = true) : FactorsKept s s' user where
  used := by
    intro old member owned used
    rw [put]
    by_cases same : old.id = factor.id
    · obtain ⟨sameUser, still⟩ := replaces old member same
      exact ⟨factor, self_mem_putFactor, same.symm, sameUser.symm.trans owned, still used⟩
    · exact ⟨old, mem_putFactor_of_ne member same, rfl, owned, used⟩
  off := by
    intro off
    have other : factor.user ≠ user := by
      intro same
      rw [concerned same.symm] at off
      cases off
    have old : ∀ row ∈ s'.factors, row.user = user → row ∈ s.factors := by
      rw [put]
      intro row member owned
      rcases mem_putFactor member with rfl | ⟨there, _⟩
      · exact absurd owned other
      · exact there
    rw [mfaEnabled_eq_false_iff] at off ⊢
    exact ⟨fun row member owned => off row (old row member owned) owned,
      fun row member owned => ⟨row, old row member owned, rfl, owned⟩⟩

end Factors

section Deletions

variable {Hash : Type} {env : Environment Hash}

theorem leads_removeUsers (gone : Nat → Bool) (s : Store Hash) :
    Leads env s (removeUsers gone s) := by
  refine leads_of_tables (fun tables => ⟨?_, ?_⟩) rfl rfl
  · constructor
    · exact fun user member => tables.users user (List.mem_of_mem_filter member)
    · exact tables.userIds.filter _
    · exact fun factor member => tables.factors factor (List.mem_of_mem_filter member)
    · exact tables.factorIds.filter _
    · exact tables.domains
  · constructor
    · exact le_rfl
    · intro user member _
      obtain ⟨there, stays⟩ := List.mem_filter.mp member
      refine ⟨user, there, rfl, le_rfl, fun decided => decided, fun _ => ⟨rfl, rfl, ?_, ?_⟩⟩
      · intro factor owned same used
        exact ⟨factor, List.mem_filter.mpr ⟨owned, same ▸ stays⟩, rfl, same, used⟩
      · intro off
        rw [mfaEnabled_eq_false_iff] at off ⊢
        exact ⟨fun factor owned => off factor (List.mem_of_mem_filter owned),
          fun factor owned same => ⟨factor, List.mem_of_mem_filter owned, rfl, same⟩⟩
    · exact fun domain member _ => ⟨domain, member, rfl, le_rfl⟩

theorem leads_deleteUser (target : Nat) (s : Store Hash) :
    Leads env s ((deleteUser target s).getD s) := by
  refine leads_getD fun s' deleted => ?_
  rw [deleteUser] at deleted
  split at deleted
  · cases deleted
  · cases deleted
    exact leads_removeUsers _ s

end Deletions

section Tables

variable {Hash : Type} {env : Environment Hash} (distinguishing : Distinguishing env)
  {s s' : Store Hash}

include distinguishing

private theorem now_le (calls : s.calls ≤ s'.calls) : s.now env ≤ s'.now env :=
  distinguishing.clock.monotone calls

private theorem leads_update {change : User → User} (users : s'.users = s.users.map change)
    (domains : s'.domains = s.domains) (nextId : s'.nextId = s.nextId)
    (calls : s.calls ≤ s'.calls) (issued : s'.issued = s.issued) (mailed : s'.mailed = s.mailed)
    (factors : Tables env s →
      (∀ factor ∈ s'.factors, factor.id < s.nextId) ∧ Keyed Factor.id s'.factors)
    (continues : Tables env s → ∀ user ∈ s.users, Continues s s' user (change user) ∧
      (change user).credentialsChanged < s'.now env) : Leads env s s' := by
  refine leads_of_tables (fun tables => ⟨?_, ?_⟩) issued mailed
  · constructor
    · intro user member
      rw [users] at member
      obtain ⟨old, there, rfl⟩ := List.mem_map.mp member
      obtain ⟨same, past⟩ := continues tables old there
      rw [nextId, same.id]
      exact ⟨(tables.users old there).1, past⟩
    · rw [users]
      exact tables.userIds.map fun user member => (continues tables user member).1.id
    · rw [nextId]
      exact (factors tables).1
    · exact (factors tables).2
    · rw [domains, nextId]
      intro domain member
      obtain ⟨given, early⟩ := tables.domains domain member
      exact ⟨given, early.mono (now_le distinguishing calls)⟩
  · constructor
    · exact nextId.ge
    · intro after member _
      rw [users] at member
      obtain ⟨before, there, rfl⟩ := List.mem_map.mp member
      exact ⟨before, there, (continues tables before there).1⟩
    · rw [domains]
      exact fun domain member _ => ⟨domain, member, rfl, le_rfl⟩

private theorem leads_domains (users : s'.users = s.users) (factors : s'.factors = s.factors)
    (nextId : s.nextId ≤ s'.nextId) (calls : s.calls ≤ s'.calls) (issued : s'.issued = s.issued)
    (mailed : s'.mailed = s.mailed)
    (rows : Tables env s → ∀ after ∈ s'.domains,
      (after.id < s'.nextId ∧ Early (s'.now env) after) ∧ (after.id < s.nextId →
        ∃ before ∈ s.domains, before.id = after.id ∧
          before.renewalChanged ≤ after.renewalChanged)) : Leads env s s' := by
  refine leads_of_tables (fun tables => ⟨?_, ?_⟩) issued mailed
  · constructor
    · rw [users]
      intro user member
      obtain ⟨given, past⟩ := tables.users user member
      exact ⟨given.trans_le nextId, past.trans_le (now_le distinguishing calls)⟩
    · rw [users]
      exact tables.userIds
    · rw [factors]
      exact fun factor member => (tables.factors factor member).trans_le nextId
    · rw [factors]
      exact tables.factorIds
    · exact fun domain member => (rows tables domain member).1
  · constructor
    · exact nextId
    · rw [users]
      exact fun user member _ =>
        ⟨user, member, rfl, le_rfl, id, fun _ => ⟨rfl, rfl, factorsKept_of_eq factors⟩⟩
    · exact fun domain member => (rows tables domain member).2

/-- The rows that codes depend on stay as they are. -/
theorem leads_same (users : s'.users = s.users) (factors : s'.factors = s.factors)
    (domains : s'.domains = s.domains) (nextId : s.nextId ≤ s'.nextId)
    (calls : s.calls ≤ s'.calls) (issued : s'.issued = s.issued) (mailed : s'.mailed = s.mailed) :
    Leads env s s' := by
  refine leads_domains distinguishing users factors nextId calls issued mailed ?_
  rw [domains]
  intro tables domain member
  obtain ⟨given, early⟩ := tables.domains domain member
  exact ⟨⟨given.trans_le nextId, early.mono (now_le distinguishing calls)⟩,
    fun _ => ⟨domain, member, rfl, le_rfl⟩⟩

theorem leads_tick (s : Store Hash) : Leads env s s.tick :=
  leads_same distinguishing rfl rfl rfl le_rfl (Nat.le_succ _) rfl rfl

end Tables

section Users

variable {Hash : Type} {env : Environment Hash} (distinguishing : Distinguishing env)

include distinguishing

theorem leads_mapUsers {change : User → User} (s : Store Hash)
    (id : ∀ user, (change user).id = user.id)
    (credentials : ∀ user, (change user).credentialsChanged = user.credentialsChanged ∧
      (change user).email = user.email ∧ (change user).password = user.password)
    (isActive : ∀ user, user.isActive ≠ none → (change user).isActive ≠ none) :
    Leads env s { s with users := s.users.map change } := by
  refine leads_update distinguishing rfl rfl rfl le_rfl rfl rfl
    (fun tables => ⟨tables.factors, tables.factorIds⟩) fun tables user member => ⟨?_, ?_⟩
  · obtain ⟨same, email, password⟩ := credentials user
    exact ⟨id user, same.ge, isActive user, fun _ => ⟨email, password, factorsKept_of_eq rfl⟩⟩
  · rw [(credentials user).1]
    exact (tables.users user member).2

theorem leads_saveUser (target : Nat) {change : User → User} (s : Store Hash)
    (id : ∀ user, (change user).id = user.id)
    (credentials : ∀ user, (change user).credentialsChanged = user.credentialsChanged ∧
      (change user).email = user.email ∧ (change user).password = user.password)
    (isActive : ∀ user, user.isActive ≠ none → (change user).isActive ≠ none) :
    Leads env s (saveUser target change s) := by
  apply leads_mapUsers distinguishing
  · intro user
    split
    · exact id user
    · rfl
  · intro user
    split
    · exact credentials user
    · exact ⟨rfl, rfl, rfl⟩
  · intro user decided
    split
    · exact isActive user decided
    · exact decided

theorem leads_activate (target : Nat) (s : Store Hash) : Leads env s (activate target s) :=
  leads_saveUser distinguishing target s (fun _ => rfl) (fun _ => ⟨rfl, rfl, rfl⟩) fun _ _ => nofun

private theorem leads_changeCredentials (target : Nat) {change : User → User} (s : Store Hash)
    (id : ∀ user, (change user).id = user.id)
    (isActive : ∀ user, (change user).isActive = user.isActive) {factors : List Factor}
    (given : Tables env s → ∀ factor ∈ factors, factor.id < s.nextId)
    (keyed : Tables env s → Keyed Factor.id factors)
    (others : Tables env s → ∀ user, user ≠ target →
      FactorsKept s { changeCredentials env target change s with factors } user) :
    Leads env s { changeCredentials env target change s with factors } := by
  have passes : s.now env < s.tick.now env := distinguishing.clock (Nat.lt_succ_self s.calls)
  refine leads_update distinguishing rfl rfl rfl (Nat.le_succ _) rfl rfl
    (fun tables => ⟨given tables, keyed tables⟩) fun tables user member => ?_
  have past := (tables.users user member).2
  split
  · exact ⟨⟨id user, past.le, fun decided => isActive user ▸ decided,
      fun same => absurd past same.not_gt⟩, passes⟩
  · next other =>
    exact ⟨⟨rfl, le_rfl, fun decided => decided, fun _ => ⟨rfl, rfl, others tables user.id other⟩⟩,
      past.trans passes⟩

theorem leads_credentials (target : Nat) {change : User → User} (s : Store Hash)
    (id : ∀ user, (change user).id = user.id)
    (isActive : ∀ user, (change user).isActive = user.isActive) :
    Leads env s (changeCredentials env target change s) := by
  have kept := leads_changeCredentials distinguishing target s id isActive
    (fun tables => tables.factors) (fun tables => tables.factorIds)
    fun _ _ _ => factorsKept_of_eq rfl
  exact kept

private theorem leads_factors (s : Store Hash) {factors : List Factor}
    (given : Tables env s → ∀ factor ∈ factors, factor.id < s.nextId)
    (keyed : Tables env s → Keyed Factor.id factors)
    (kept : Tables env s → ∀ user, FactorsKept s { s with factors } user) :
    Leads env s { s with factors } := by
  refine leads_update distinguishing (List.map_id _).symm rfl rfl le_rfl rfl rfl
    (fun tables => ⟨given tables, keyed tables⟩) fun tables user member => ⟨?_, ?_⟩
  · exact ⟨rfl, le_rfl, fun decided => decided, fun _ => ⟨rfl, rfl, kept tables user.id⟩⟩
  · exact (tables.users user member).2

theorem leads_createUser (email : Text) (password : Option Text)
    (needsCaptcha outreachPreference : Bool) (s : Store Hash) :
    Leads env s (createUser env email password needsCaptcha outreachPreference s) := by
  have passes : ∀ {calls}, calls < s.calls + 2 → env.clock calls < env.clock (s.calls + 2) :=
    fun earlier => distinguishing.clock earlier
  refine leads_of_tables (fun tables => ⟨?_, ?_⟩) rfl rfl
  · constructor
    · intro user member
      rcases List.mem_append.mp member with old | new
      · obtain ⟨given, past⟩ := tables.users user old
        exact ⟨Nat.lt_succ_of_lt given, past.trans (passes (by omega))⟩
      · rw [List.mem_singleton.mp new]
        exact ⟨Nat.lt_succ_self _, passes (Nat.lt_succ_self _)⟩
    · exact tables.userIds.append fun old there => (tables.users old there).1.ne
    · exact fun factor member => Nat.lt_succ_of_lt (tables.factors factor member)
    · exact tables.factorIds
    · intro domain member
      obtain ⟨given, early⟩ := tables.domains domain member
      exact ⟨Nat.lt_succ_of_lt given, early.mono (passes (by omega)).le⟩
  · constructor
    · exact Nat.le_succ _
    · intro user member given
      rcases List.mem_append.mp member with old | new
      · exact ⟨user, old, rfl, le_rfl, fun decided => decided,
          fun _ => ⟨rfl, rfl, factorsKept_of_eq rfl⟩⟩
      · rw [List.mem_singleton.mp new] at given
        exact absurd given (lt_irrefl _)
    · exact fun domain member _ => ⟨domain, member, rfl, le_rfl⟩

end Users

section Factors

variable {Hash : Type} {env : Environment Hash}

theorem replaces_of_findFactor {s : Store Hash} (tables : Tables env s) {id : Nat}
    {factor factor' : Factor} (found : s.findFactor id = some factor)
    (same : factor'.id = factor.id) (owner : factor'.user = factor.user)
    (used : factor.totp.lastUsed.isSome → factor'.totp.lastUsed.isSome) :
    Replaces factor' s.factors := by
  intro old member sameId
  obtain rfl : old = factor :=
    tables.factorIds old member factor (mem_of_findFactor found).1 (sameId.trans same)
  exact ⟨owner.symm, used⟩

variable (distinguishing : Distinguishing env)

include distinguishing

theorem leads_saveFactor {factor : Factor} {s s' : Store Hash}
    (saved : saveFactor env factor s = some s') (given : Tables env s → factor.id < s.nextId)
    (replaces : Tables env s → Replaces factor s.factors) : Leads env s s' := by
  rw [saveFactor] at saved
  split at saved
  · cases saved
  · obtain rfl := Option.some.inj saved
    have ids : Tables env s → ∀ other ∈ putFactor factor s.factors, other.id < s.nextId := by
      intro tables other member
      rcases mem_putFactor member with rfl | ⟨old, _⟩
      · exact given tables
      · exact tables.factors other old
    have keyed (tables : Tables env s) : Keyed Factor.id (putFactor factor s.factors) :=
      keyed_putFactor tables.factorIds
    split
    · next enabled =>
      exact leads_factors distinguishing s ids keyed fun tables user =>
        factorsKept_putFactor (replaces tables) rfl fun same => same ▸ enabled
    · exact leads_changeCredentials distinguishing factor.user s (fun _ => rfl) (fun _ => rfl) ids
        keyed fun tables user other =>
          factorsKept_putFactor (replaces tables) rfl fun same => absurd same other

theorem leads_createFactor (user : Nat) (name : Text) {s s' : Store Hash}
    (created : createFactor env user name s = some s') : Leads env s s' := by
  intro sound
  have fresh : Leads env s { s with nextId := s.nextId + 1 } :=
    leads_same distinguishing rfl rfl rfl (Nat.le_succ _) le_rfl rfl rfl
  have saved := leads_saveFactor distinguishing created (fun _ => Nat.lt_succ_self _)
  refine fresh.trans (saved ?_) sound
  intro _ old member same
  exact absurd same (sound.tables.factors old member).ne

theorem leads_verify {id : Nat} {factor : Factor} (code : Text) {s s' : Store Hash}
    (found : s.findFactor id = some factor) (verified : verify env factor code s = some s') :
    Leads env s s' := by
  obtain ⟨timestep, _, saved⟩ := Option.bind_eq_some_iff.mp verified
  have there : s.tick.findFactor id = some factor := found
  refine (leads_tick distinguishing s).trans (leads_saveFactor distinguishing saved ?_ ?_)
  · exact fun tables => tables.factors factor (mem_of_findFactor there).1
  · exact fun tables => replaces_of_findFactor tables there rfl rfl fun _ => rfl

theorem leads_deleteFactor {id : Nat} {factor : Factor} {s : Store Hash}
    (found : s.findFactor id = some factor) : Leads env s (deleteFactor env factor s) := by
  have ids (tables : Tables env s) : ∀ other ∈ s.factors.filter (·.id ≠ factor.id),
      other.id < s.nextId :=
    fun other member => tables.factors other (List.mem_of_mem_filter member)
  have keyed (tables : Tables env s) := tables.factorIds.filter (·.id ≠ factor.id)
  -- The users of other factors that have been used do not lose any.
  have kept (s' : Store Hash) (left : s'.factors = s.factors.filter (·.id ≠ factor.id))
      (tables : Tables env s) (user : Nat)
      (concerned : user = factor.user → factor.totp.lastUsed.isSome = false) :
      FactorsKept s s' user := by
    constructor
    · intro old member owned used
      refine ⟨old, ?_, rfl, owned, used⟩
      rw [left]
      refine List.mem_filter.mpr ⟨member, decide_eq_true fun same => ?_⟩
      obtain rfl := tables.factorIds old member factor (mem_of_findFactor found).1 same
      rw [concerned owned.symm] at used
      cases used
    · intro off
      have old : ∀ row ∈ s'.factors, row ∈ s.factors :=
        left ▸ fun row member => List.mem_of_mem_filter member
      rw [mfaEnabled_eq_false_iff] at off ⊢
      exact ⟨fun row member => off row (old row member),
        fun row member owned => ⟨row, old row member, rfl, owned⟩⟩
  rw [deleteFactor]
  split
  · exact leads_changeCredentials distinguishing factor.user s (fun _ => rfl) (fun _ => rfl) ids
      keyed fun tables user other => kept _ rfl tables user fun same => absurd same other
  · next unused =>
    exact leads_factors distinguishing s ids keyed fun tables user =>
      kept _ rfl tables user fun _ => Bool.eq_false_of_not_eq_true unused

end Factors

section Domains

variable {Hash : Type} {env : Environment Hash} (distinguishing : Distinguishing env)

include distinguishing

theorem leads_createDomain (name : Text) (owner : Nat) (isLocallyRegistrable : Bool)
    (s : Store Hash) : Leads env s (createDomain env name owner isLocallyRegistrable s) := by
  have passes : s.now env < s.tick.now env := distinguishing.clock (Nat.lt_succ_self s.calls)
  refine leads_domains distinguishing rfl rfl (Nat.le_succ _) (Nat.le_succ _) rfl rfl ?_
  intro tables domain member
  rcases List.mem_append.mp member with old | new
  · obtain ⟨given, early⟩ := tables.domains domain old
    exact ⟨⟨Nat.lt_succ_of_lt given, early.mono passes.le⟩, fun _ => ⟨domain, old, rfl, le_rfl⟩⟩
  · rw [List.mem_singleton.mp new]
    refine ⟨⟨Nat.lt_succ_self _, s.now env, passes, le_rfl, ?_, ?_⟩, ?_⟩
    · exact fun _ touched => absurd touched List.not_mem_nil
    · exact fun _ published => nomatch published
    · exact fun given => absurd given (lt_irrefl _)

/-- A row keeps its id, its renewal state does not change earlier, and it knows nothing later. -/
structure Advances (now : Nat) (domain row : Domain) : Prop where
  id : row.id = domain.id
  renewalChanged : domain.renewalChanged ≤ row.renewalChanged
  bounded : Bounded now row

omit distinguishing in
theorem advances_of_stirred {now : Nat} {domain row : Domain} (stirred : Stirred now domain row)
    (bounded : Bounded now domain) : Advances now domain row :=
  ⟨stirred.id, stirred.renewalChanged.ge, stirred.bounded bounded⟩

omit distinguishing in
theorem advances_renewalState {now : Nat} {domain : Domain} (bounded : Bounded now domain)
    (renewalState : RenewalState) :
    Advances now domain { domain with renewalState, renewalChanged := now } :=
  ⟨rfl, bounded.renewalChanged, le_rfl, bounded.touched, bounded.published⟩

theorem leads_stampDomain (target : Nat) {change : Nat → Domain → Domain} (s : Store Hash)
    (advances : ∀ domain, Bounded (s.now env) domain →
      Advances (s.now env) domain (change (s.now env) domain)) :
    Leads env s (stampDomain env target change s) := by
  have passes : s.now env < s.tick.now env := distinguishing.clock (Nat.lt_succ_self s.calls)
  refine leads_domains distinguishing rfl rfl le_rfl (Nat.le_succ _) rfl rfl ?_
  intro tables row member
  obtain ⟨domain, there, rfl⟩ := List.mem_map.mp member
  obtain ⟨given, time, past, bounded⟩ := tables.domains domain there
  split
  · obtain ⟨id, renewalChanged, later⟩ := advances domain (bounded.mono past.le)
    exact ⟨⟨id.trans_lt given, s.now env, passes, later⟩,
      fun _ => ⟨domain, there, id.symm, renewalChanged⟩⟩
  · exact ⟨⟨given, time, past.trans passes, bounded⟩, fun _ => ⟨domain, there, rfl, le_rfl⟩⟩

theorem leads_renewTouchedDomains (s : Store Hash) : Leads env s (renewTouchedDomains env s) := by
  have passes : s.now env < s.tick.now env := distinguishing.clock (Nat.lt_succ_self s.calls)
  refine leads_domains distinguishing rfl rfl le_rfl (Nat.le_succ _) rfl rfl ?_
  intro tables row member
  obtain ⟨domain, there, rfl⟩ := List.mem_map.mp member
  obtain ⟨given, time, past, bounded⟩ := tables.domains domain there
  split
  · next recent =>
    -- The last activity is later than the last change, and over.
    rw [Domains.Scavenge.recentlyActive, Bool.and_eq_true] at recent
    obtain ⟨lastActive, last, later⟩ := (Option.any_eq_true _ _).mp recent.2
    rw [Bool.and_eq_true, decide_eq_true_eq, decide_eq_true_eq] at later
    have ended := bounded.lastActive_le last
    rw [last]
    exact ⟨⟨given, time, past.trans passes, ended, bounded.touched, bounded.published⟩,
      fun _ => ⟨domain, there, rfl, later.2.le⟩⟩
  · exact ⟨⟨given, time, past.trans passes, bounded⟩, fun _ => ⟨domain, there, rfl, le_rfl⟩⟩

theorem leads_deleteDomain (target : Nat) (s : Store Hash) :
    Leads env s (deleteDomain target s) := by
  refine leads_domains distinguishing rfl rfl le_rfl le_rfl rfl rfl fun tables domain member => ?_
  have there := List.mem_of_mem_filter member
  exact ⟨tables.domains domain there, fun _ => ⟨domain, there, rfl, le_rfl⟩⟩

end Domains

section Codes

variable {Hash : Type} {env : Environment Hash} {s s' : Store Hash} {code : Code Hash}

/-- Activation is pending where a code is for that, and MFA is off where it is for a factor. -/
structure Timely (s : Store Hash) (action : Action) : Prop where
  activation : action.isActivation = true →
    ∀ user ∈ s.users, user.id = action.user → user.isActive = none
  totp : ∀ user name, action = .createTotp user name → s.mfaEnabled user = false

private theorem known_of_state (tables : Tables env s)
    (computed : state env s code.action = some code.state) : Known env s code where
  user := by
    obtain ⟨user, member, same⟩ := user_of_state computed
    exact same ▸ (tables.users user member).1
  domain := by
    intro user domain kind
    obtain ⟨row, member, same, _⟩ := renewed_of_state kind computed
    exact same ▸ (tables.domains row member).1
  dated := by
    intro kind
    obtain ⟨user, member, same, dated⟩ := dated_of_state computed kind
    refine ⟨_, _, dated, fun row there sameId => ?_⟩
    rw [tables.userIds row there user member (sameId.trans same.symm)]

private theorem regular_of_state (tables : Tables env s) (timely : Timely s code.action)
    (computed : state env s code.action = some code.state) : Regular env s code where
  activation := by
    intro activation
    have kind : code.action.isUserAction = true := by
      generalize code.action = action at activation
      cases action <;> first | rfl | cases activation
    obtain ⟨user, member, same, dated⟩ := dated_of_state computed kind
    rw [timely.activation activation user member same] at dated
    exact ⟨_, dated⟩
  totp := by
    intro user name totp
    obtain ⟨row, member, same, dated⟩ := dated_of_state computed (by rw [totp]; rfl)
    refine ⟨_, _, dated, fun other there sameId => ?_⟩
    rw [totp] at same
    rw [tables.userIds other there row member (sameId.trans same.symm)]
    exact ⟨le_rfl, fun _ => timely.totp user name totp⟩

private theorem leads_send (users : s'.users = s.users) (factors : s'.factors = s.factors)
    (domains : s'.domains = s.domains) (nextId : s'.nextId = s.nextId) (calls : s'.calls = s.calls)
    (issued : Tables env s → ∀ code ∈ s'.issued, code ∈ s.issued ∨
      state env s code.action = some code.state ∧ Timely s code.action)
    (mailed : ∀ code ∈ s'.mailed, code ∈ s.mailed ∨
      state env s code.action = some code.state) : Leads env s s' := by
  intro sound
  have follows : Follows s s' := by
    refine ⟨nextId.ge, ?_, ?_⟩
    · rw [users]
      exact fun user member _ =>
        ⟨user, member, rfl, le_rfl, id, fun _ => ⟨rfl, rfl, factorsKept_of_eq factors⟩⟩
    · rw [domains]
      exact fun domain member _ => ⟨domain, member, rfl, le_rfl⟩
  have tables : Tables env s' := by
    have now : s'.now env = s.now env := congrArg env.clock calls
    obtain ⟨rows, userIds, given, factorIds, domainRows⟩ := sound.tables
    constructor
    · rwa [users, nextId, now]
    · rwa [users]
    · rwa [factors, nextId]
    · rwa [factors]
    · rwa [domains, nextId, now]
  refine ⟨⟨tables, ?_, ?_⟩, follows⟩
  · rintro code (sent | sent)
    · refine Known.follows ?_ follows
      rcases issued sound.tables code sent with old | new
      · exact sound.known code (.inl old)
      · exact known_of_state sound.tables new.1
    · refine Known.follows ?_ follows
      rcases mailed code sent with old | new
      · exact sound.known code (.inr old)
      · exact known_of_state sound.tables new
  · intro code sent
    rcases issued sound.tables code sent with old | ⟨computed, timely⟩
    · exact (sound.regular code old).follows (sound.known code (.inl old)) follows
    · exact (regular_of_state sound.tables timely computed).follows
        (known_of_state sound.tables computed) follows

theorem leads_issue (action : Action) (s : Store Hash)
    (timely : Tables env s → Timely s action) : Leads env s (issue env action s) := by
  rw [issue]
  split
  · next hash computed =>
    refine leads_send rfl rfl rfl rfl rfl (fun tables code sent => ?_) fun _ sent => .inl sent
    rcases List.mem_append.mp sent with old | new
    · exact .inl old
    · rw [List.mem_singleton.mp new]
      exact .inr ⟨computed, timely tables⟩
  · exact Leads.refl s

theorem leads_mail (action : Action) (s : Store Hash) : Leads env s (mail env action s) := by
  rw [mail]
  split
  · next hash computed =>
    refine leads_send rfl rfl rfl rfl rfl (fun _ _ sent => .inl sent) fun code sent => ?_
    rcases List.mem_append.mp sent with old | new
    · exact .inl old
    · rw [List.mem_singleton.mp new]
      exact .inr computed
  · exact Leads.refl s

theorem timely_of_other {action : Action} (activation : action.isActivation = false)
    (totp : ∀ user name, action ≠ .createTotp user name) : Timely s action where
  activation := fun kind => absurd (kind.symm.trans activation) nofun
  totp := fun user name kind => absurd kind (totp user name)

end Codes

end DesecStack.Accounts.Preserved
