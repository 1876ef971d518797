/- module: DesecStack/Tenants/Isolation
   layer: main results
   digest: Whatever other users do, the domains, RRsets, tokens and policies of a user stay. -/

import DesecStack.Tenants.Effects

set_option autoImplicit false
set_option relaxedAutoImplicit false

namespace DesecStack.Tenants.Isolation

open Library.PyText (Text)
open Library.Runs (bind_eq_ok_iff)
open Changes.Models (Database Item RRset put value value_put value_erase)
open Changes.Pdns (ns)
open Names.Qnames (isLocallyRegistrable parentDomainName)
open Tokens.Policies
open Tokens.Store (Tables Operation policySet findToken perform)
open Tokens.Primacy
open Domains.Delegation (autoDelegate updateDelegation delegating ds)
open Views.Enforced (Names enforced_of_handle)
open Views.Stored (isRRsetWrite)
open Views.Writes (Site Caller WriteRequest handle rrsetView domain post updateMany updateDetail
  destroyDetail dynDnsSave)
open Requests Effects

section Rows

variable {site : Site} {caller : Caller} {db db' : Database} {request : WriteRequest}

private theorem mem_of_domain {name : Text} {rrsets : Changes.Models.RRsets}
    (found : domain caller db name = .ok rrsets) : name ∈ caller.domains := by
  unfold domain at found
  split at found
  · split at found
    · assumption
    · cases found
  · cases found

private theorem mem_of_rrsetView {name : Text} {rrsets : Changes.Models.RRsets}
    (found : rrsetView caller db name = .ok rrsets) : name ∈ caller.domains := by
  unfold rrsetView at found
  split at found
  · exact mem_of_domain found
  · cases found

private theorem owned_of_handle (onRRsets : isRRsetWrite request = true)
    (done : handle site caller db request = .ok db') (d : Text) (item : Item)
    (differs : value db' d item ≠ value db d item) : d ∈ caller.domains := by
  have named := ((enforced_of_handle done).changed d item differs).resolve_right (by
    rintro ⟨zonefile, rfl, -⟩
    cases onRRsets)
  cases request with
  | post name data =>
    simp only [handle, post, bind_eq_ok_iff] at done
    obtain ⟨rrsets, view, -⟩ := done
    cases data with
    | list rows => exact named.1 ▸ mem_of_rrsetView view
    | dict fields => exact named.1 ▸ mem_of_rrsetView view
    | _ => exact absurd named id
  | update isPartial name query data =>
    simp only [handle, updateMany, bind_eq_ok_iff] at done
    obtain ⟨rrsets, view, -⟩ := done
    cases data with
    | list rows => exact named.1 ▸ mem_of_rrsetView view
    | _ => exact absurd named id
  | updateDetail isPartial name own data =>
    simp only [handle, updateDetail, bind_eq_ok_iff] at done
    obtain ⟨rrsets, view, -⟩ := done
    exact named.1 ▸ mem_of_rrsetView view
  | destroyDetail name own =>
    rw [handle, destroyDetail] at done
    split at done
    · rw [Except.ok.inj done] at differs
      exact absurd rfl differs
    · simp only [bind_eq_ok_iff] at done
      obtain ⟨rrsets, view, -⟩ := done
      exact named.1 ▸ mem_of_rrsetView view
  | dynDns name subnames rows =>
    simp only [handle, dynDnsSave, bind_eq_ok_iff] at done
    obtain ⟨rrsets, view, -⟩ := done
    exact named.1 ▸ mem_of_domain view
  | createDomain name zonefile => cases onRRsets

end Rows

section Delegations

variable {localPublicSuffixes : Finset Text} {defaultNS : List Text} {child : Text}
  {keys : Option (List (List Text))} {db db' : Database}

/-- An RRset that delegates a domain from its parent. -/
def DelegatesFrom (d : Text) (item : Item) (child : Text) : Prop :=
  parentDomainName child = some d ∧ (item = delegating ns child ∨ item = delegating ds child)

private theorem changed_of_put {name d : Text} {own item : Item} {rrset : Option RRset}
    (differs : value (put db name own rrset) d item ≠ value db d item) : d = name ∧ item = own := by
  by_cases present : (db.lookup name).isSome
  · rw [value_put present] at differs
    by_contra other
    exact differs (if_neg other)
  · have absent : db.lookup name = none := by simpa using present
    exact absurd (by simp [put, absent]) differs

private theorem changed_of_updateDelegation {parent : Text}
    (done : updateDelegation defaultNS parent child keys db = some db') {d : Text} {item : Item}
    (differs : value db' d item ≠ value db d item) : DelegatesFrom d item child := by
  unfold updateDelegation at done
  split at done
  · cases done
  · next under =>
    have under : parentDomainName child = some parent := not_not.mp under
    -- each of the updates is at the NS or the DS RRset
    have kept (old : Database) (type : Text) (rrset : Option RRset)
        (own : type = ns ∨ type = ds) : ¬ DelegatesFrom d item child →
          value (put old parent (delegating type child) rrset) d item = value old d item := by
      intro apart
      by_contra changed
      obtain ⟨rfl, rfl⟩ := changed_of_put changed
      rcases own with rfl | rfl
      · exact apart ⟨under, .inl rfl⟩
      · exact apart ⟨under, .inr rfl⟩
    by_contra apart
    apply differs
    dsimp only at done
    split at done
    · rw [← Option.some.inj done, kept _ _ _ (.inr rfl) apart, kept _ _ _ (.inl rfl) apart]
    · cases done
    · rw [← Option.some.inj done, kept _ _ _ (.inr rfl) apart, kept _ _ _ (.inl rfl) apart,
        kept _ _ _ (.inr rfl) apart, kept _ _ _ (.inl rfl) apart]

theorem changed_of_delegate {env : Environment} {d : Text} {item : Item}
    (differs : value (delegate env child keys db) d item ≠ value db d item) :
    d ∈ env.service.localPublicSuffixes ∧ DelegatesFrom d item child := by
  unfold delegate at differs
  split at differs
  · exact absurd rfl differs
  · next delegated done =>
    split at differs
    · unfold autoDelegate at done
      split at done
      · next registrable =>
        obtain ⟨parent, under, done⟩ := Option.bind_eq_some_iff.mp done
        split at done
        · have changed := changed_of_updateDelegation done differs
          refine ⟨?_, changed⟩
          rw [isLocallyRegistrable, changed.1] at registrable
          simpa using registrable
        · cases done
      · rw [Option.some.inj done] at differs
        exact absurd rfl differs
    · exact absurd rfl differs

end Delegations

section Requests

variable {env : Environment} {s : System} {token : Token}

@[simp] theorem mem_domainsOf {tables : Tables} {user : Nat} {name : Text} :
    name ∈ domainsOf tables user ↔ (name, user) ∈ tables.domains := by
  simp [domainsOf]

private theorem visibleToken_eq_some {tables : Tables} {user id : Nat} {found : Token}
    (visible : visibleToken tables user id = some found) :
    found ∈ tables.tokens ∧ (found.owner = user ∨ found.userOverride = some user) := by
  have holds := List.find?_some visible
  simp only [Bool.and_eq_true, Bool.or_eq_true, decide_eq_true_eq] at holds
  exact ⟨List.mem_of_find?_eq_some visible, holds.2⟩

private theorem userToken_eq_some {tables : Tables} {user id : Nat} {found : Token}
    (own : userToken tables user id = some found) :
    found ∈ tables.tokens ∧ found.userId = user := by
  have holds := List.find?_some own
  simp only [Bool.and_eq_true, decide_eq_true_eq] at holds
  exact ⟨List.mem_of_find?_eq_some own, holds.2⟩

theorem token_of_policyOf {unicode : Library.PyText.Unicode} {caller : Caller} {id tokenId : Nat}
    {fields : PolicyFields} {policy : TokenDomainPolicy}
    (made : policyOf unicode caller id tokenId fields = some policy) :
    policy.id = id ∧ policy.token = tokenId := by
  simp only [policyOf, Option.bind_eq_bind, Option.bind_eq_some_iff, Option.ite_none_right_eq_some,
    Option.some.injEq] at made
  obtain ⟨-, -, -, -, -, rfl⟩ := made
  exact ⟨rfl, rfl⟩

private theorem owned_of_operationOf (sound : Sound s.tables) {request : TokenRequest}
    {operation : Operation} (asked : operationOf env s token request = some operation) :
    Owned s.tables token.userId operation := by
  have unique {one other : Token} (here : one ∈ s.tables.tokens) (there : other ∈ s.tables.tokens)
      (same : one.id = other.id) : one = other := sound.token_unique here there same
  cases request with
  | create id policyId fields =>
    rw [operationOf, Option.some.injEq] at asked
    exact asked ▸ rfl
  | update id policyId fields =>
    simp only [operationOf, Option.bind_eq_bind, Option.bind_eq_some_iff,
      Option.ite_none_right_eq_some, Option.some.injEq] at asked
    obtain ⟨old, visible, own, rfl⟩ := asked
    have there := (visibleToken_eq_some visible).1
    refine ⟨own, fun other here same => ?_⟩
    rw [unique here there same, own]
  | destroy id =>
    obtain ⟨old, visible, rfl⟩ := Option.map_eq_some_iff.mp asked
    obtain ⟨there, holds⟩ := visibleToken_eq_some visible
    intro other here same
    obtain rfl := unique here there same
    rcases holds with owner | user
    · exact .inr owner
    · exact .inl (by rw [Token.userId, user, Option.getD_some])
  | createPolicy tokenId id fields =>
    simp only [operationOf, Option.bind_eq_bind, Option.bind_eq_some_iff,
      Option.some.injEq] at asked
    obtain ⟨owner, found, policy, made, rfl⟩ := asked
    obtain ⟨there, own⟩ := userToken_eq_some found
    intro other here same
    rw [unique here there (same.trans (token_of_policyOf made).2), own]
  | updatePolicy tokenId id fields =>
    simp only [operationOf, Option.bind_eq_bind, Option.bind_eq_some_iff,
      Option.ite_none_right_eq_some, Option.some.injEq] at asked
    obtain ⟨owner, visible, old, -, policy, made, own, rfl⟩ := asked
    have there := (visibleToken_eq_some visible).1
    intro other here same
    rw [unique here there (same.trans (token_of_policyOf made).2), own]
  | destroyPolicy tokenId id =>
    simp only [operationOf, Option.bind_eq_bind, Option.bind_eq_some_iff,
      Option.ite_none_right_eq_some, Option.some.injEq] at asked
    obtain ⟨owner, visible, old, found, own, rfl⟩ := asked
    have there := (visibleToken_eq_some visible).1
    obtain ⟨present, ofOwner⟩ := mem_policySet_iff.mp (List.mem_of_find?_eq_some found)
    intro policy inside samePolicy other here same
    obtain rfl := List.inj_on_of_nodup_map sound.policyIds inside present samePolicy
    rw [unique here there (same.trans ofOwner), own]

private theorem acts_of_write (consistent : Consistent s.tables) {user : Nat}
    {operation : Option Operation}
    (own : ∀ asked, operation = some asked → Owned s.tables user asked) :
    Acts user s.tables (write s operation).tables ∧ Consistent (write s operation).tables := by
  cases operation with
  | none => exact ⟨Acts.refl _ _, consistent⟩
  | some asked =>
    cases done : perform s.tables asked with
    | none =>
      have same : (write s (some asked)).tables = s.tables := by
        rw [write, Option.bind_some, done]
        rfl
      rw [same]
      exact ⟨Acts.refl _ _, consistent⟩
    | some tables =>
      have same : (write s (some asked)).tables = tables := by
        rw [write, Option.bind_some, done]
        rfl
      rw [same]
      exact ⟨acts_of_perform consistent (own asked rfl) done, consistent_of_perform consistent done⟩

/-- The RRsets that a request may change: those of domains of the user, before or after it, and the
delegations of these domains. -/
def Reaches (suffixes : Finset Text) (user : Nat) (before after : Tables) (d : Text)
    (item : Item) : Prop :=
  let own (name : Text) := (name, user) ∈ before.domains ∨ (name, user) ∈ after.domains
  own d ∨ d ∈ suffixes ∧ ∃ child, DelegatesFrom d item child ∧ own child

private theorem acts_of_createDomain (consistent : Consistent s.tables)
    (present : token ∈ s.tables.tokens)
    (name : Text) (zonefile : Option Text) (policyId : Nat) (keys : List (List Text)) :
    let s' := createDomain env s token name zonefile policyId keys
    (Acts token.userId s.tables s'.tables ∧ Consistent s'.tables) ∧
      ∀ d item, value s'.db d item ≠ value s.db d item →
        Reaches env.service.localPublicSuffixes token.userId s.tables s'.tables d item := by
  dsimp only
  unfold createDomain
  split
  · next db tables created performed =>
    have own : Owned s.tables token.userId (.createDomain name token.id policyId) :=
      fun other here same => by rw [consistent.sound.token_unique here present same]
    have owned : (name, token.userId) ∈ tables.domains := by
      obtain ⟨other, found, -, domains⟩ := domains_of_insertDomain performed
      rw [findToken_of_mem consistent.sound.tokenIds present] at found
      rw [Option.some.inj found, domains]
      exact List.mem_append_right _ (List.mem_singleton_self _)
    refine ⟨⟨acts_of_perform consistent own performed, consistent_of_perform consistent performed⟩,
      fun d item differs => ?_⟩
    by_cases delegated : value (delegate env name (some keys) db) d item = value db d item
    · rw [delegated] at differs
      have changed := (Views.Enforced.enforced_createDomain created).changed d item differs
      rcases changed with named | ⟨_, same, -⟩
      · exact .inl (.inr (named.1 ▸ owned))
      · cases same
        exact .inl (.inr owned)
    · obtain ⟨suffix, from_⟩ := changed_of_delegate delegated
      exact .inr ⟨suffix, name, from_, .inr owned⟩
  · exact ⟨⟨Acts.refl _ _, consistent⟩, fun d item differs => absurd rfl differs⟩

private theorem acts_of_destroyDomain (consistent : Consistent s.tables) (name : Text) :
    let s' := destroyDomain env s token name
    (Acts token.userId s.tables s'.tables ∧ Consistent s'.tables) ∧
      ∀ d item, value s'.db d item ≠ value s.db d item →
        Reaches env.service.localPublicSuffixes token.userId s.tables s'.tables d item := by
  dsimp only
  unfold destroyDomain
  split
  · next allowed =>
    have owned : (name, token.userId) ∈ s.tables.domains := by
      simp only [deletable, Bool.and_eq_true, decide_eq_true_eq] at allowed
      exact mem_domainsOf.mp allowed.1.1.1.2
    split
    · exact ⟨⟨Acts.refl _ _, consistent⟩, fun d item differs => absurd rfl differs⟩
    · next tables performed =>
      have own : Owned s.tables token.userId (.deleteDomain name) := fun owner there =>
        congrArg Prod.snd (List.inj_on_of_nodup_map consistent.linked.names there owned rfl)
      refine ⟨⟨acts_of_perform consistent own performed,
        consistent_of_perform consistent performed⟩, fun d item differs => ?_⟩
      by_cases delegated : value (delegate env name none (s.db.erase name)) d item =
          value (s.db.erase name) d item
      · rw [delegated, value_erase] at differs
        have same : d = name := by
          by_contra other
          exact differs (if_neg other)
        exact .inl (.inl (same ▸ owned))
      · obtain ⟨suffix, from_⟩ := changed_of_delegate delegated
        exact .inr ⟨suffix, name, from_, .inl owned⟩
  · exact ⟨⟨Acts.refl _ _, consistent⟩, fun d item differs => absurd rfl differs⟩

private theorem acts_of_respond (consistent : Consistent s.tables)
    (present : token ∈ s.tables.tokens)
    (request : Request) :
    let s' := respond env s token request
    (Acts token.userId s.tables s'.tables ∧ Consistent s'.tables) ∧
      ∀ d item, value s'.db d item ≠ value s.db d item →
        Reaches env.service.localPublicSuffixes token.userId s.tables s'.tables d item := by
  have unique {other : Token} (here : other ∈ s.tables.tokens) (same : other.id = token.id) :
      other = token := consistent.sound.token_unique here present same
  cases request with
  | write request onRRsets =>
    refine ⟨⟨Acts.refl _ _, consistent⟩, fun d item differs => .inl (.inl ?_)⟩
    rw [respond, Views.Writes.after] at differs
    dsimp only at differs
    split at differs
    · next db done => exact mem_domainsOf.mp (owned_of_handle onRRsets done d item differs)
    · exact absurd rfl differs
  | createDomain name zonefile policyId keys =>
    exact acts_of_createDomain consistent present name zonefile policyId keys
  | destroyDomain name => exact acts_of_destroyDomain consistent name
  | manage request =>
    refine ⟨acts_of_write consistent fun asked same => ?_, fun d item differs => absurd rfl differs⟩
    unfold manage at same
    split at same
    · exact owned_of_operationOf consistent.sound same
    · cases same
  | verifyTotp policyId =>
    refine ⟨acts_of_write consistent fun asked same => ?_, fun d item differs => absurd rfl differs⟩
    obtain rfl := Option.some.inj same
    exact ⟨rfl, fun old here sameId => congrArg Token.userId (unique here sameId)⟩
  | logout =>
    refine ⟨acts_of_write consistent fun asked same => ?_, fun d item differs => absurd rfl differs⟩
    obtain rfl := Option.some.inj same
    exact fun old here sameId => .inl (congrArg Token.userId (unique here sameId))

private theorem acts_of_login (consistent : Consistent s.tables) (user id : Nat)
    (expired : List Nat) :
    Acts user s.tables (login user id expired s).tables ∧
      Consistent (login user id expired s).tables ∧ (login user id expired s).db = s.db := by
  unfold login
  dsimp only
  generalize chosen : (expired.filter fun old => s.tables.tokens.any fun token =>
    token.id = old && token.owner = user && token.userOverride = none && token.mfa.isSome) = logins
  have cleaned : Acts user s.tables ((logins.map Operation.deleteToken).foldl
      (Library.Runs.attempt perform) s.tables) ∧ Consistent ((logins.map
        Operation.deleteToken).foldl (Library.Runs.attempt perform) s.tables) := by
    refine List.foldlRecOn (motive := fun tables => Acts user s.tables tables ∧ Consistent tables)
      _ _ ⟨Acts.refl _ _, consistent⟩ fun tables holds operation member => ?_
    obtain ⟨old, chosenOld, rfl⟩ := List.mem_map.mp member
    rw [← chosen, List.mem_filter, List.any_eq_true] at chosenOld
    obtain ⟨-, token, there, holdsToken⟩ := chosenOld
    simp only [Bool.and_eq_true, decide_eq_true_eq] at holdsToken
    rw [Library.Runs.attempt]
    cases done : perform tables (.deleteToken old) with
    | none => exact holds
    | some next =>
      refine ⟨holds.1.trans (acts_of_perform holds.2 ?_ done), consistent_of_perform holds.2 done⟩
      intro other here same
      rcases holds.1.made other here with was | own
      · obtain rfl := consistent.sound.token_unique was there (same.trans holdsToken.1.1.1.symm)
        exact .inr holdsToken.1.1.2
      · exact .inl own
  obtain ⟨first, middle⟩ := cleaned
  have own (tables : Tables) (asked : Operation)
      (same : some (.createToken ⟨id, user, none, some false, true, true, true, false⟩ id) =
        some asked) : Owned tables user asked := Option.some.inj same ▸ rfl
  obtain ⟨second, last⟩ := acts_of_write (s := ⟨_, s.db⟩) middle (own _)
  exact ⟨first.trans second, last, rfl⟩

end Requests

/-- The domains under which users may register when an event happens. -/
def suffixes : Event → Finset Text
  | .request env _ _ => env.service.localPublicSuffixes
  | .login _ _ _ => ∅

/-- The event is not the act of the user. -/
def Foreign (user : Nat) (s : System) (event : Event) : Prop := actor s event ≠ some user

instance (user : Nat) (s : System) (event : Event) : Decidable (Foreign user s event) :=
  inferInstanceAs (Decidable (_ ≠ _))

/-- What is left alone of a user. Tokens that act for the user may be deleted by their owners, and a
public suffix of the user may get delegations to the domains of others. -/
structure Isolated (user : Nat) (suffix : Text → Prop) (s s' : System) : Prop where
  domains (name : Text) :
    (name, user) ∈ s'.tables.domains ↔ (name, user) ∈ s.tables.domains
  made (token : Token) (present : token ∈ s'.tables.tokens) (own : token.userId = user) :
    token ∈ s.tables.tokens
  ended (token : Token) (present : token ∈ s.tables.tokens) (own : token.userId = user) :
    token ∈ s'.tables.tokens ∨ token.owner ≠ user
  policies (token : Token) (present : token ∈ s'.tables.tokens) (own : token.userId = user)
    (policy : TokenDomainPolicy) (of : policy.token = token.id) :
    policy ∈ s'.tables.policies ↔ policy ∈ s.tables.policies
  values (d : Text) (own : (d, user) ∈ s.tables.domains) (item : Item)
    (differs : value s'.db d item ≠ value s.db d item) :
    suffix d ∧ ∃ child, DelegatesFrom d item child ∧ (child, user) ∉ s.tables.domains

section Runs

variable {user : Nat} {s : System}

private theorem Isolated.refl (user : Nat) (suffix : Text → Prop) (s : System) :
    Isolated user suffix s s where
  domains _ := Iff.rfl
  made _ present _ := present
  ended _ present _ := .inl present
  policies _ _ _ _ _ := Iff.rfl
  values _ _ _ differs := absurd rfl differs

private theorem Isolated.trans {suffix suffix' : Text → Prop} {s t u : System}
    (one : Isolated user suffix s t) (two : Isolated user suffix' t u) :
    Isolated user (fun d => suffix d ∨ suffix' d) s u where
  domains name := (two.domains name).trans (one.domains name)
  made token present own := one.made token (two.made token present own) own
  ended token present own := by
    rcases one.ended token present own with there | foreign
    · exact two.ended token there own
    · exact .inr foreign
  policies token present own policy of :=
    (two.policies token present own policy of).trans
      (one.policies token (two.made token present own) own policy of)
  values d own item differs := by
    by_cases first : value t.db d item = value s.db d item
    · obtain ⟨suffix, child, delegates, foreign⟩ :=
        two.values d ((one.domains d).mpr own) item (first ▸ differs)
      exact ⟨.inr suffix, child, delegates, fun mine => foreign ((one.domains child).mpr mine)⟩
    · obtain ⟨suffix, rest⟩ := one.values d own item first
      exact ⟨.inl suffix, rest⟩

private theorem isolated_of_acts {actor : Nat} {before after : System} {suffixes : Finset Text}
    (other : actor ≠ user) (consistent : Consistent before.tables) (last : Consistent after.tables)
    (acts : Acts actor before.tables after.tables)
    (reaches : ∀ d item, value after.db d item ≠ value before.db d item →
      Reaches suffixes actor before.tables after.tables d item) :
    Isolated user (· ∈ suffixes) before after where
  domains name := acts.domains name user (Ne.symm other)
  made token present own := by
    rcases acts.made token present with was | actors
    · exact was
    · exact absurd (actors.symm.trans own) other
  ended token present own := by
    rcases acts.ended token present with still | actors | owner
    · exact .inl still
    · exact absurd (actors.symm.trans own) other
    · exact .inr fun mine => other (owner.symm.trans mine)
  policies token present own policy of := by
    have was := (acts.made token present).resolve_right fun actors =>
      other (actors.symm.trans own)
    constructor
    · intro now
      rcases acts.granted policy now with before | actors
      · exact before
      · exact absurd ((actors token present of.symm).symm.trans own) other
    · intro before
      rcases acts.revoked policy before with still | actors
      · exact still
      · rcases actors token was of.symm with mine | gone
        · exact absurd (mine.symm.trans own) other
        · exact absurd present gone
  values d own item differs := by
    -- the actor has neither the domain nor, with it, its names
    have foreign {name : Text} (mine : (name, user) ∈ before.tables.domains) :
        ¬ ((name, actor) ∈ before.tables.domains ∨ (name, actor) ∈ after.tables.domains) := by
      rintro (theirs | theirs)
      · exact other (congrArg Prod.snd
          (List.inj_on_of_nodup_map consistent.linked.names theirs mine rfl))
      · have still := (acts.domains name user (Ne.symm other)).mpr mine
        exact other (congrArg Prod.snd
          (List.inj_on_of_nodup_map last.linked.names theirs still rfl))
    rcases reaches d item differs with theirs | ⟨suffix, child, delegates, theirs⟩
    · exact absurd theirs (foreign own)
    · exact ⟨suffix, child, delegates, fun mine => foreign mine theirs⟩

theorem consistent_step (consistent : Consistent s.tables) (event : Event) :
    Consistent (step s event).tables := by
  cases event with
  | request env auth request =>
    rw [step]
    cases found : findToken s.tables auth with
    | none => exact consistent
    | some token =>
      exact (acts_of_respond consistent (findToken_eq_some found).1 request).1.2
  | login other id expired => exact (acts_of_login consistent other id expired).2.1

theorem isolated_step (consistent : Consistent s.tables) {event : Event}
    (foreign : Foreign user s event) :
    Isolated user (· ∈ suffixes event) s (step s event) := by
  have last := consistent_step consistent event
  cases event with
  | request env auth request =>
    rw [step] at last ⊢
    cases found : findToken s.tables auth with
    | none => exact Isolated.refl ..
    | some token =>
      rw [found] at last
      have other : token.userId ≠ user := by
        intro same
        exact foreign (by rw [actor, found, Option.map_some, same])
      obtain ⟨⟨acts, -⟩, reaches⟩ := acts_of_respond consistent (findToken_eq_some found).1 request
      exact isolated_of_acts other consistent last acts reaches
  | login other id expired =>
    obtain ⟨acts, -, sameDb⟩ := acts_of_login consistent other id expired
    have different : other ≠ user := fun same => foreign (congrArg some same)
    exact isolated_of_acts different consistent last acts fun d item differs =>
      absurd (congrArg (value · d item) sameDb) differs

/-- Other users leave a user alone, whatever they do and in whatever order. -/
theorem tenant_isolated (user : Nat) (s : System) (events : List Event)
    (consistent : Consistent s.tables) (foreign : Along (Foreign user) s events) :
    Isolated user (fun d => ∃ event ∈ events, d ∈ suffixes event) s (run s events) := by
  induction events generalizing s with
  | nil => exact Isolated.refl ..
  | cons event rest ih =>
    have first := isolated_step consistent foreign.1
    have later := ih (step s event) (consistent_step consistent event) foreign.2
    have whole := first.trans later
    have same : (fun d => ∃ other ∈ event :: rest, d ∈ suffixes other) =
        fun d => d ∈ suffixes event ∨ ∃ other ∈ rest, d ∈ suffixes other := by
      funext d
      simp
    rw [same]
    exact whole

end Runs

section Sample

/-- A site with one public suffix, where dnspython leaves records as they are. -/
def plainSite : Site where
  unicode := .plain
  dns := ⟨{"A".toList, "NS".toList, "DS".toList}, fun content _ => .ok content,
    fun _ content => content, fun _ _ => false⟩
  settings := ⟨["ns1.example.".toList], 3600, "catalog.internal.".toList, false, id⟩
  orders := Changes.Compute.sortedOrders
  contents := Changes.Compute.sortedOrders.names
  minimumTtl _ := 60
  minimumTtlDefault := 60
  isLocallyRegistrable := isLocallyRegistrable {"dyn.test".toList}
  blockedSubnet _ := false
  isValidName _ := true
  registerLps := true
  parseZonefile _ _ := .ok []
  leaves _ := true

def plainEnvironment : Environment where
  service := ⟨plainSite, {"dyn.test".toList}, fun _ => rfl⟩
  accounts _ := ⟨false, none⟩

private def tables₆ : Tables := Tokens.Store.reached
  [.createToken ⟨1, 1, none, none, true, true, true, false⟩ 0,
    .createToken ⟨2, 2, none, none, true, true, true, false⟩ 0,
    .createDomain "dyn.test".toList 1 0]

private def system₆ : System :=
  ⟨tables₆, Finmap.insert "dyn.test".toList
    (Finmap.insert ("A".toList, []) ⟨60, {"192.0.2.1".toList}⟩ ∅) ∅⟩

/-- The second user takes a name under the domain of the first one, and asks for more than that. -/
private def events₆ : List Event :=
  [.request plainEnvironment 2 (.createDomain "b.dyn.test".toList none 0 [["1 8 2 ab".toList]]),
    .request plainEnvironment 2 (.write (.destroyDetail "dyn.test".toList ("A".toList, [])) rfl),
    .request plainEnvironment 2 (.manage (.update 1 0 ⟨true, true, false, false⟩)),
    .request plainEnvironment 2 (.destroyDomain "dyn.test".toList)]

theorem tenant_isolated_delegated :
    value (run system₆ events₆).db "dyn.test".toList (delegating ds "b.dyn.test".toList) =
        some ⟨300, {"1 8 2 ab".toList}⟩ ∧
      Isolated 1 (fun d => ∃ event ∈ events₆, d ∈ suffixes event) system₆
        (run system₆ events₆) := by
  refine ⟨by decide +kernel, tenant_isolated 1 system₆ events₆
    ⟨sound_reached _, Tokens.Binding.linked_reached _⟩ ?_⟩
  refine ⟨?_, ?_, ?_, ?_, trivial⟩ <;> decide +kernel

end Sample

end DesecStack.Tenants.Isolation
