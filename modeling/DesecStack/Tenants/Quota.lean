/- module: DesecStack/Tenants/Quota
   source: api/desecapi/views/domains.py 36-56, api/desecapi/permissions.py 134-177
   digest: Users get and lose domains only with the right to, and stay within their limits. -/

import DesecStack.Tenants.AutoPolicy

set_option autoImplicit false
set_option relaxedAutoImplicit false

namespace DesecStack.Tenants.Quota

open Library.PyText (Text)
open Tokens.Policies
open Tokens.Store
open Tokens.Primacy
open Requests Effects Isolation
open AutoPolicy (consistent_run domains_of_write)

/-- The user may have one more domain, and asks for it with a token that may create domains. -/
def Creation (user : Nat) (s : System) (event : Event) (name : Text) : Prop :=
  ∃ env auth zonefile policyId keys token,
    event = .request env auth (.createDomain name zonefile policyId keys) ∧
      findToken s.tables auth = some token ∧ token.userId = user ∧
      mfaPassed (callerOf env s token) = true ∧ token.permCreateDomain = true ∧
      ∀ limit, (env.accounts user).limitDomains = some limit →
        (domainsOf s.tables user).card < limit

/-- The user asks to delete the domain, with a token that may do so. -/
def Deletion (user : Nat) (s : System) (event : Event) (name : Text) : Prop :=
  ∃ env auth token, event = .request env auth (.destroyDomain name) ∧
    findToken s.tables auth = some token ∧ token.userId = user ∧
    deletable (callerOf env s token) name = true

section Steps

variable {tables tables' : Tables} {s : System} {env : Environment} {token : Token}

private theorem domains_of_manage (request : TokenRequest) :
    (write s (manage env s token request)).tables.domains = s.tables.domains := by
  have tokens : ∀ operation, manage env s token request = some operation →
      (∀ name auth policyId, operation ≠ .createDomain name auth policyId) ∧
        ∀ name, operation ≠ .deleteDomain name := by
    intro operation asked
    rw [manage] at asked
    split at asked
    · cases request <;>
        simp only [operationOf, Option.bind_eq_bind, Option.bind_eq_some_iff,
          Option.map_eq_some_iff, Option.ite_none_right_eq_some, Option.some.injEq] at asked <;>
        grind
    · cases asked
  refine domains_of_write (fun name auth policyId asked => ?_) fun name asked => ?_
  · exact (tokens _ asked).1 name auth policyId rfl
  · exact (tokens _ asked).2 name rfl

private theorem domains_of_login (user id : Nat) (expired : List Nat) :
    (login user id expired s).tables.domains = s.tables.domains := by
  have cleaned (logins : List Nat) (tables : Tables) :
      ((logins.map Operation.deleteToken).foldl (Library.Runs.attempt perform) tables).domains =
        tables.domains := by
    induction logins generalizing tables with
    | nil => rfl
    | cons first rest ih =>
      rw [List.map_cons, List.foldl_cons, ih, Library.Runs.attempt]
      cases done : perform tables (.deleteToken first) with
      | none => rfl
      | some tables' =>
        exact domains_of_perform (fun _ _ _ => by simp) (fun _ => by simp) done
  rw [login]
  refine (domains_of_write (fun _ _ _ => by simp) fun _ => by simp).trans ?_
  exact cleaned _ _

private theorem domainsOf_eq (user : Nat) (same : tables'.domains = tables.domains) :
    domainsOf tables' user = domainsOf tables user := by
  rw [domainsOf, same, domainsOf]

/-- The domains of a user before and after an event. -/
structure Moves (user : Nat) (s : System) (event : Event) (s' : System) : Prop where
  gained : ∀ name ∈ domainsOf s'.tables user,
    name ∈ domainsOf s.tables user ∨ Creation user s event name
  lost : ∀ name ∈ domainsOf s.tables user,
    name ∈ domainsOf s'.tables user ∨ Deletion user s event name

private theorem moves_of_eq {user : Nat} {event : Event} {s' : System}
    (same : s'.tables.domains = s.tables.domains) : Moves user s event s' :=
  ⟨fun _ member => .inl (domainsOf_eq user same ▸ member),
    fun _ member => .inl ((domainsOf_eq user same).symm ▸ member)⟩

private theorem allowed_of_createDomain {site : Views.Writes.Site} {caller : Views.Writes.Caller}
    {db db' : Changes.Models.Database} {name : Text} {zonefile : Option Text}
    (created : Views.Writes.createDomain site caller db name zonefile = .ok db') :
    mfaPassed caller = true ∧ caller.token.permCreateDomain = true ∧
      ∀ limit, caller.limitDomains = some limit → caller.domains.card < limit := by
  rw [Views.Writes.createDomain] at created
  split at created
  · cases created
  · next allowed =>
    simp only [not_or, not_not] at allowed
    obtain ⟨passed, permitted, within⟩ := allowed
    refine ⟨passed, permitted, fun limit own => ?_⟩
    rw [own] at within
    exact of_decide_eq_true within

private theorem moves_of_createDomain (consistent : Consistent s.tables) {auth : Nat}
    (found : findToken s.tables auth = some token) (user : Nat) (name : Text)
    (zonefile : Option Text) (policyId : Nat) (keys : List (List Text)) :
    Moves user s (.request env auth (.createDomain name zonefile policyId keys))
      (createDomain env s token name zonefile policyId keys) := by
  unfold createDomain
  split
  · next db tables created performed =>
    obtain ⟨other, isOther, -, domains⟩ := domains_of_insertDomain performed
    have present := (findToken_eq_some found).1
    rw [findToken_of_mem consistent.sound.tokenIds present] at isOther
    obtain rfl := Option.some.inj isOther
    refine ⟨fun gained member => ?_, fun lost member => .inl ?_⟩
    · rw [mem_domainsOf] at member
      dsimp only at member
      rw [domains, List.mem_append, List.mem_singleton] at member
      rcases member with old | new
      · exact .inl (mem_domainsOf.mpr old)
      · obtain ⟨rfl, rfl⟩ := Prod.mk.inj new
        exact .inr ⟨env, auth, zonefile, policyId, keys, token, rfl, found, rfl,
          allowed_of_createDomain created⟩
    · rw [mem_domainsOf] at member ⊢
      dsimp only
      rw [domains]
      exact List.mem_append_left _ member
  · exact moves_of_eq rfl

private theorem moves_of_destroyDomain (consistent : Consistent s.tables) {auth : Nat}
    (found : findToken s.tables auth = some token) (user : Nat) (name : Text) :
    Moves user s (.request env auth (.destroyDomain name)) (destroyDomain env s token name) := by
  unfold destroyDomain
  split
  · next allowed =>
    split
    · exact moves_of_eq rfl
    · next tables performed =>
      have domains := domains_of_deleteDomain performed
      refine ⟨fun gained member => .inl ?_, fun lost member => ?_⟩
      · rw [mem_domainsOf] at member ⊢
        dsimp only at member
        rw [domains] at member
        exact List.mem_of_mem_filter member
      · by_cases same : lost = name
        · subst same
          have may := (Bool.and_eq_true _ _ ▸ allowed).1
          have owned : (lost, token.userId) ∈ s.tables.domains := by
            simp only [deletable, Bool.and_eq_true, decide_eq_true_eq] at may
            exact mem_domainsOf.mp may.1.1.2
          have own : token.userId = user := congrArg Prod.snd
            (List.inj_on_of_nodup_map consistent.linked.names owned (mem_domainsOf.mp member) rfl)
          exact .inr ⟨env, auth, token, rfl, found, own, may⟩
        · refine .inl ?_
          rw [mem_domainsOf] at member ⊢
          dsimp only
          rw [domains]
          exact List.mem_filter.mpr ⟨member, decide_eq_true same⟩
  · exact moves_of_eq rfl

private theorem moves_step (consistent : Consistent s.tables) (user : Nat) (event : Event) :
    Moves user s event (step s event) := by
  cases event with
  | login other id expired => exact moves_of_eq (domains_of_login other id expired)
  | request env auth request =>
    cases found : findToken s.tables auth with
    | none =>
      have stepped : step s (.request env auth request) = s := by rw [step, found]
      exact moves_of_eq (by rw [stepped])
    | some token =>
      have stepped : step s (.request env auth request) = respond env s token request := by
        rw [step, found]
      rw [stepped]
      cases request with
      | write request policyId => exact moves_of_eq rfl
      | createDomain name zonefile policyId keys =>
        exact moves_of_createDomain consistent found user name zonefile policyId keys
      | destroyDomain name => exact moves_of_destroyDomain consistent found user name
      | manage request => exact moves_of_eq (domains_of_manage request)
      | verifyTotp policyId =>
        exact moves_of_eq (domains_of_write (fun _ _ _ => by simp) fun _ => by simp)
      | logout => exact moves_of_eq (domains_of_write (fun _ _ _ => by simp) fun _ => by simp)

end Steps

section Runs

/-- Requests meet a limit on the domains of the user, up to the given one. -/
def Limited (user limit : Nat) (events : List Event) : Prop :=
  ∀ env auth request, .request env auth request ∈ events →
    ∃ own, (env.accounts user).limitDomains = some own ∧ own ≤ limit

/-- An event of the run has been like this in the state before it. -/
def Happened (s : System) (events : List Event) (like : System → Event → Prop) : Prop :=
  ∃ earlier event later, events = earlier ++ event :: later ∧ like (run s earlier) event

private theorem Happened.append {s : System} {events : List Event} {like : System → Event → Prop}
    (happened : Happened s events like) (event : Event) : Happened s (events ++ [event]) like := by
  obtain ⟨earlier, past, later, rfl, was⟩ := happened
  refine ⟨earlier, past, later ++ [event], ?_, was⟩
  rw [List.append_assoc, List.cons_append]

/-- With one event, the user gets one domain at most, and none over the limit. -/
theorem card_step {s : System} (consistent : Consistent s.tables) {user limit : Nat}
    {event : Event} (limited : Limited user limit [event]) :
    (domainsOf (step s event).tables user).card ≤
      max (domainsOf s.tables user).card limit := by
  have moves := moves_step consistent user event
  by_cases creates : ∃ name, Creation user s event name
  · obtain ⟨name, env, auth, zonefile, policyId, keys, token, asked, -, -, -, -, within⟩ := creates
    obtain ⟨own, isOwn, le⟩ := limited env auth _ (List.mem_singleton.mpr asked.symm)
    have fewer := within own isOwn
    have subset : domainsOf (step s event).tables user ⊆ insert name (domainsOf s.tables user) := by
      intro gained member
      rcases moves.gained gained member with old | new
      · exact Finset.mem_insert_of_mem old
      · obtain ⟨_, _, _, _, _, _, again, -⟩ := new
        cases asked.symm.trans again
        exact Finset.mem_insert_self ..
    have counted := (Finset.card_le_card subset).trans (Finset.card_insert_le _ _)
    omega
  · have subset : domainsOf (step s event).tables user ⊆ domainsOf s.tables user := by
      intro gained member
      rcases moves.gained gained member with old | new
      · exact old
      · exact absurd ⟨gained, new⟩ creates
    exact (Finset.card_le_card subset).trans (le_max_left _ _)

/-- In every run, a user gets and loses domains only by requests with tokens of the user that have
the right to, and never gets more than a number that bounds the limit at each request. -/
theorem quota_kept (user : Nat) (s : System) (events : List Event)
    (consistent : Consistent s.tables) :
    (∀ name ∈ domainsOf (run s events).tables user, name ∈ domainsOf s.tables user ∨
      Happened s events fun before event => Creation user before event name) ∧
    (∀ name ∈ domainsOf s.tables user, name ∈ domainsOf (run s events).tables user ∨
      Happened s events fun before event => Deletion user before event name) ∧
    ∀ limit, Limited user limit events →
      (domainsOf (run s events).tables user).card ≤ max (domainsOf s.tables user).card limit := by
  induction events using List.reverseRecOn with
  | nil => exact ⟨fun _ => .inl, fun _ => .inl, fun _ _ => le_max_left _ _⟩
  | append_singleton events event ih =>
    obtain ⟨gained, lost, counted⟩ := ih
    have moves := moves_step (consistent_run consistent events) user event
    rw [run_append]
    refine ⟨fun name member => ?_, fun name member => ?_, fun limit limited => ?_⟩
    · rcases moves.gained name member with old | new
      · exact (gained name old).imp_right fun happened => happened.append event
      · exact .inr ⟨events, event, [], rfl, new⟩
    · rcases lost name member with kept | happened
      · exact (moves.lost name kept).imp_right fun deleted => ⟨events, event, [], rfl, deleted⟩
      · exact .inr (happened.append event)
    · have earlier := counted limit fun env auth request member =>
        limited env auth request (List.mem_append_left _ member)
      have last : Limited user limit [event] := fun env auth request member =>
        limited env auth request (List.mem_append_right _ member)
      have stepped := card_step (consistent_run consistent events) last
      omega

end Runs

section Sample

private def limited : Environment :=
  { plainEnvironment with accounts := fun _ => ⟨false, some 1⟩ }

private def tables₁₂ : Tables :=
  reached [.createToken ⟨1, 1, none, none, true, true, false, false⟩ 0]

/-- A user with a limit of one domain creates one, and asks for another one. -/
private def events₁₂ : List Event :=
  [.request limited 1 (.createDomain "b.test".toList none 0 []),
    .request limited 1 (.createDomain "c.test".toList none 0 [])]

theorem quota_kept_created :
    domainsOf (run ⟨tables₁₂, ∅⟩ events₁₂).tables 1 = {"b.test".toList} ∧
      (Happened ⟨tables₁₂, ∅⟩ events₁₂ fun before event =>
        Creation 1 before event "b.test".toList) ∧
      (domainsOf (run ⟨tables₁₂, ∅⟩ events₁₂).tables 1).card ≤
        max (domainsOf tables₁₂ 1).card 1 := by
  have reached : domainsOf (run ⟨tables₁₂, ∅⟩ events₁₂).tables 1 = {"b.test".toList} := by
    decide +kernel
  obtain ⟨gained, -, counted⟩ := quota_kept 1 ⟨tables₁₂, ∅⟩ events₁₂
    ⟨sound_reached _, Tokens.Binding.linked_reached _⟩
  refine ⟨reached, ?_, counted 1 fun env auth request member => ?_⟩
  · have fresh : "b.test".toList ∉ domainsOf tables₁₂ 1 := by decide +kernel
    exact (gained "b.test".toList (by rw [reached]; decide)).resolve_left fresh
  · rcases List.mem_cons.mp member with first | second
    · cases first
      exact ⟨1, rfl, le_rfl⟩
    · cases List.mem_singleton.mp second
      exact ⟨1, rfl, le_rfl⟩

end Sample

end DesecStack.Tenants.Quota
