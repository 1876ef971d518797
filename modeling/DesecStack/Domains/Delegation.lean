/- module: DesecStack/Domains/Delegation
   source: api/desecapi/management/commands/scavenge-unused.py 88-109,
     api/desecapi/models/domains.py 226-300, api/desecapi/views/domains.py 119-131
   digest: The deletion of unused domains, and what it leaves of their delegations when it fails. -/

import DesecStack.Changes.Pdns
import DesecStack.Domains.Scavenge
import DesecStack.Names.Qnames

set_option autoImplicit false
set_option relaxedAutoImplicit false

namespace DesecStack.Domains.Delegation

open Library.PyText (Text)
open Changes.Models
open Changes.Pdns (ns)
open Names.Qnames (partitionedName parentDomainName isLocallyRegistrable name_eq length_parent_lt)
open Scavenge (Domain RenewalState expired)

def ds : Text := "DS".toList

/-- The RRset of a type that delegates a domain. -/
def delegating (type name : Text) : Item := (type, (partitionedName name).1)

/-- The domain rows, the RRsets of the domains, and the users. -/
structure State where
  domains : List Domain
  db : Database
  users : List Nat

def State.names (s : State) : List Text := s.domains.map Domain.name

section Updates

variable (localPublicSuffixes : Finset Text) (defaultNS : List Text)

/-- `update_delegation` of a domain in the database. The DS records come with the keys of the child;
without keys, the child has no primary key. `none` stands for an exception. -/
def updateDelegation (parent child : Text) (keys : Option (List (List Text))) (db : Database) :
    Option Database :=
  if parentDomainName child ≠ some parent then none
  else
    let removed :=
      put (put db parent (delegating ns child) none) parent (delegating ds child) none
    match keys with
    | none => some removed
    | some [] => none
    | some keys =>
      some (put (put removed parent (delegating ns child) (some ⟨3600, defaultNS.toFinset⟩)) parent
        (delegating ds child) (some ⟨300, keys.flatten.toFinset⟩))

/-- `auto_delegate` -/
def autoDelegate (child : Text) (keys : Option (List (List Text))) (db : Database) :
    Option Database :=
  if isLocallyRegistrable localPublicSuffixes child then
    (parentDomainName child).bind fun parent =>
      if (db.lookup parent).isSome then updateDelegation defaultNS parent child keys db else none
  else some db

end Updates

/-- Where something raises in a block: not at all, while its transaction can be rolled back, or
after it has been committed. -/
inductive Fault where
  | none
  | rolledBack
  | committed
  deriving DecidableEq

/-- What raises: in the rounds of the loop, by domain, and in the delegation update. What follows
the deletion in a round is the query for other domains of the owner and the deletion of the
owner. -/
structure Faults where
  round : Text → Fault
  delegation : Fault

section Command

/-- `Domain.delete`, with the RRsets of the domain. -/
def deleteDomain (name : Text) (s : State) : State :=
  { s with domains := s.domains.filter (·.name ≠ name), db := s.db.erase name }

/-- An owner who has no domains left is deleted. -/
def deleteOwner (owner : Nat) (s : State) : State :=
  if s.domains.any (·.owner = owner) then s else { s with users := s.users.filter (· ≠ owner) }

/-- One round of the loop, and whether it goes on. -/
def deleteRound (fault : Fault) (domain : Domain) (s : State) : State × Bool :=
  match fault with
  | .rolledBack => (s, false)
  | .committed => (deleteDomain domain.name s, false)
  | .none => (deleteOwner domain.owner (deleteDomain domain.name s), true)

/-- The loop over the expired domains. -/
def deleteEach (round : Text → Fault) : List Domain → State → State × Bool
  | [], s => (s, true)
  | domain :: rest, s =>
    match deleteRound (round domain.name) domain s with
    | (next, true) => deleteEach round rest next
    | (next, false) => (next, false)

/-- The second loop. The instances of the deleted domains have lost their primary keys. -/
def autoDelegateEach (localPublicSuffixes : Finset Text) (defaultNS : List Text) :
    List Domain → Database → Option Database
  | [], db => some db
  | domain :: rest, db =>
    (autoDelegate localPublicSuffixes defaultNS domain.name none db).bind
      (autoDelegateEach localPublicSuffixes defaultNS rest)

/-- The delegation update -/
def delegateEach (localPublicSuffixes : Finset Text) (defaultNS : List Text) (fault : Fault)
    (domains : List Domain) (s : State) : State × Bool :=
  match autoDelegateEach localPublicSuffixes defaultNS domains s.db with
  | none => (s, false)
  | some db =>
    match fault with
    | .none => ({ s with db }, true)
    | .rolledBack => (s, false)
    | .committed => ({ s with db }, false)

/-- The queryset of `delete_domains`, which is evaluated once. -/
def expiredDomains (active : Nat → Bool) (now inactiveDays : Nat) (s : State) : List Domain :=
  s.domains.filter (expired active now inactiveDays)

/-- `delete_domains`: what is in the database afterwards, and whether it returns. -/
def deleteDomains (localPublicSuffixes : Finset Text) (defaultNS : List Text) (active : Nat → Bool)
    (now inactiveDays : Nat) (faults : Faults) (s : State) : State × Bool :=
  let domains := expiredDomains active now inactiveDays s
  match deleteEach faults.round domains s with
  | (s', true) => delegateEach localPublicSuffixes defaultNS faults.delegation domains s'
  | (s', false) => (s', false)

end Command

section Properties

/-- The NS and DS RRsets at the name of a domain in the zone of its parent. -/
def delegation (db : Database) (name : Text) : Option RRset × Option RRset :=
  match parentDomainName name with
  | some parent => (value db parent (delegating ns name), value db parent (delegating ds name))
  | none => (none, none)

/-- No delegation is left of a domain that is gone, and those of other domains are as before. -/
structure Clean (before after : State) : Prop where
  gone : ∀ name ∈ before.names, name ∉ after.names → delegation after.db name = (none, none)
  kept : ∀ name ∈ after.names, delegation after.db name = delegation before.db name

/-- Nothing is deleted, as there is nothing to delete, or the first deletion is refused. -/
def Idle (round : Text → Fault) (domains : List Domain) : Prop :=
  ∀ first ∈ domains.head?, round first.name = .rolledBack

/-- Nothing raises while there is something to roll back or to go on with, and no domain has been
delegated from the zone of one that is to be deleted. -/
structure Smooth (faults : Faults) (domains : List Domain) (s : State) : Prop where
  rounds : ∀ domain ∈ domains, faults.round domain.name = .none
  delegation : faults.delegation ≠ .rolledBack
  parents : ∀ child ∈ s.names, ∀ domain ∈ domains, parentDomainName child = some domain.name →
    Delegation.delegation s.db child = (none, none)

end Properties

/-- The rows and the RRsets of some domains are gone, and nothing else. -/
structure Removed (deleted : List Domain) (s s' : State) : Prop where
  domains : s'.domains = s.domains.filter fun domain => domain.name ∉ deleted.map Domain.name
  lookup : ∀ name,
    s'.db.lookup name = if name ∈ deleted.map Domain.name then none else s.db.lookup name

section Loop

variable {round : Text → Fault} {s t u : State}

private theorem Removed.nil (s : State) : Removed [] s s := ⟨by simp, by simp⟩

private theorem removed_deleteDomain (domain : Domain) (s : State) :
    Removed [domain] s (deleteDomain domain.name s) := by
  refine ⟨by simp [deleteDomain], fun name => ?_⟩
  rw [deleteDomain]
  by_cases same : name = domain.name
  · subst same
    simp
  · simp [same, Finmap.lookup_erase_ne same]

private theorem removed_deleteOwner (owner : Nat) {deleted : List Domain}
    (removed : Removed deleted s t) :
    Removed deleted s (deleteOwner owner t) := by
  rw [deleteOwner]
  split
  · exact removed
  · exact ⟨removed.domains, removed.lookup⟩

private theorem Removed.append {first second : List Domain} (one : Removed first s t)
    (other : Removed second t u) : Removed (first ++ second) s u where
  domains := by
    rw [other.domains, one.domains, List.filter_filter]
    apply List.filter_congr
    intro domain _
    rw [List.map_append, ← Bool.decide_and, decide_eq_decide, List.mem_append, not_or, and_comm]
  lookup := by
    intro name
    rw [other.lookup, one.lookup]
    by_cases inside : name ∈ second.map Domain.name <;> simp [inside]

/-- The loop deletes the domains up to where something raises. -/
theorem deleteEach_spec (round : Text → Fault) : ∀ (domains : List Domain) (s : State),
    ∃ deleted, deleted <+: domains ∧ Removed deleted s (deleteEach round domains s).1 ∧
      ((deleteEach round domains s).2 = true ↔ ∀ domain ∈ domains, round domain.name = .none) ∧
      ((deleteEach round domains s).2 = true → deleted = domains) ∧
      (deleted = [] ↔ Idle round domains) := by
  intro domains
  induction domains with
  | nil =>
    intro s
    exact ⟨[], List.prefix_refl _, Removed.nil s, by simp [deleteEach], fun _ => rfl,
      by simp [Idle]⟩
  | cons domain rest ih =>
    intro s
    cases fault : round domain.name with
    | rolledBack =>
      exact ⟨[], List.nil_prefix, by simpa [deleteEach, deleteRound, fault] using Removed.nil s,
        by simp [deleteEach, deleteRound, fault], by simp [deleteEach, deleteRound, fault],
        by simp [Idle, fault]⟩
    | committed =>
      refine ⟨[domain], ⟨rest, rfl⟩, ?_, by simp [deleteEach, deleteRound, fault],
        by simp [deleteEach, deleteRound, fault], by simp [Idle, fault]⟩
      simpa [deleteEach, deleteRound, fault] using removed_deleteDomain domain s
    | none =>
      have goes : deleteEach round (domain :: rest) s =
          deleteEach round rest (deleteOwner domain.owner (deleteDomain domain.name s)) := by
        simp only [deleteEach, deleteRound, fault]
      obtain ⟨deleted, first, removed, all, whole, _⟩ :=
        ih (deleteOwner domain.owner (deleteDomain domain.name s))
      rw [goes]
      have head := removed_deleteOwner domain.owner (removed_deleteDomain domain s)
      refine ⟨domain :: deleted, List.cons_prefix_cons.mpr ⟨rfl, first⟩, head.append removed, ?_,
        fun done => by rw [whole done], by simp [Idle, fault]⟩
      rw [all, List.forall_mem_cons]
      simp [fault]

end Loop

section Block

variable {localPublicSuffixes : Finset Text} {defaultNS : List Text} {db db' : Database}

/-- The RRsets that delegate one of the domains. -/
def Delegates (domains : List Domain) (parent : Text) (item : Item) : Prop :=
  ∃ domain ∈ domains, parentDomainName domain.name = some parent ∧
    (item = delegating ns domain.name ∨ item = delegating ds domain.name)

private theorem autoDelegate_none {child parent : Text}
    (registrable : isLocallyRegistrable localPublicSuffixes child = true)
    (under : parentDomainName child = some parent) :
    autoDelegate localPublicSuffixes defaultNS child none db =
      if (db.lookup parent).isSome then
        some (put (put db parent (delegating ns child) none) parent (delegating ds child) none)
      else none := by
  simp [autoDelegate, updateDelegation, registrable, under]

private theorem value_undelegated (child : Text) {parent : Text}
    (present : (db.lookup parent).isSome)
    (name : Text) (item : Item) :
    value (put (put db parent (delegating ns child) none) parent (delegating ds child) none) name
        item =
      if name = parent ∧ (item = delegating ns child ∨ item = delegating ds child) then none
      else value db name item := by
  rw [value_put (by rwa [lookup_put_isSome]), value_put present]
  by_cases same : name = parent
  · by_cases second : item = delegating ds child <;> simp [same, second]
  · simp [same]

private theorem parent_of_registrable {child : Text}
    (registrable : isLocallyRegistrable localPublicSuffixes child = true) :
    ∃ parent, parentDomainName child = some parent := by
  rw [isLocallyRegistrable] at registrable
  obtain ⟨parent, under, _⟩ := (Option.any_eq_true _ _).mp registrable
  exact ⟨parent, under⟩

/-- The zones of all parents are there. -/
def Parented (db : Database) (domains : List Domain) : Prop :=
  ∀ domain ∈ domains, ∀ parent, parentDomainName domain.name = some parent →
    (db.lookup parent).isSome

/-- The delegations of the domains are gone, and nothing else. -/
structure Undelegated (domains : List Domain) (db db' : Database) : Prop where
  gone : ∀ name item, Delegates domains name item → value db' name item = none
  kept : ∀ name item, ¬ Delegates domains name item → value db' name item = value db name item

/-- The loop goes through, unless a parent is missing. -/
theorem autoDelegateEach_cases (defaultNS : List Text) : ∀ (domains : List Domain) (db : Database),
    (∀ domain ∈ domains, isLocallyRegistrable localPublicSuffixes domain.name = true) →
      (¬ Parented db domains ∧ autoDelegateEach localPublicSuffixes defaultNS domains db = none) ∨
        (Parented db domains ∧ ∃ db',
          autoDelegateEach localPublicSuffixes defaultNS domains db = some db' ∧
            Undelegated domains db db') := by
  intro domains
  induction domains with
  | nil =>
    intro db _
    refine .inr ⟨by simp [Parented], db, rfl, ?_, fun _ _ _ => rfl⟩
    rintro name item ⟨_, member, _⟩
    cases member
  | cons domain rest ih =>
    intro db registrable
    obtain ⟨registered, others⟩ := List.forall_mem_cons.mp registrable
    obtain ⟨parent, under⟩ := parent_of_registrable registered
    rw [autoDelegateEach, autoDelegate_none registered under]
    by_cases present : (db.lookup parent).isSome
    · rw [if_pos present, Option.bind_some]
      have values := value_undelegated domain.name present
      have lookups (name : Text) : ((put (put db parent (delegating ns domain.name) none) parent
          (delegating ds domain.name) none).lookup name).isSome = (db.lookup name).isSome := by
        rw [lookup_put_isSome, lookup_put_isSome]
      generalize put (put db parent (delegating ns domain.name) none) parent
        (delegating ds domain.name) none = next at values lookups
      have parented : Parented db (domain :: rest) ↔ Parented next rest := by
        simp only [Parented, List.forall_mem_cons, under, Option.some.injEq, forall_eq', present,
          true_and, lookups]
      rw [parented]
      rcases ih next others with failed | ⟨all, last, done, gone, kept⟩
      · exact .inl failed
      · refine .inr ⟨all, last, done, ?_, ?_⟩
        · intro name item delegates
          by_cases later : Delegates rest name item
          · exact gone name item later
          · rw [kept name item later, values]
            obtain ⟨first, member, above, delegating⟩ := delegates
            rcases List.mem_cons.mp member with rfl | member
            · rw [under] at above
              exact if_pos ⟨(Option.some.inj above).symm, delegating⟩
            · exact absurd ⟨first, member, above, delegating⟩ later
        · intro name item other
          have later : ¬ Delegates rest name item := fun ⟨first, member, rest⟩ =>
            other ⟨first, List.mem_cons_of_mem _ member, rest⟩
          rw [kept name item later, values]
          exact if_neg fun ⟨same, delegating⟩ =>
            other ⟨domain, List.mem_cons_self, same ▸ under, delegating⟩
    · rw [if_neg present]
      exact .inl ⟨fun all => present (all domain List.mem_cons_self parent under), rfl⟩

end Block

section Delegations

variable {deleted domains : List Domain} {s s' : State}

private theorem delegation_of_parent {db : Database} {name parent : Text}
    (under : parentDomainName name = some parent) :
    delegation db name =
      (value db parent (delegating ns name), value db parent (delegating ds name)) := by
  simp only [delegation, under]

private theorem lookup_of_delegation {db : Database} {name parent : Text}
    (under : parentDomainName name = some parent) (delegated : delegation db name ≠ (none, none)) :
    (db.lookup parent).isSome := by
  by_contra absent
  have empty : db.lookup parent = none := by simpa using absent
  rw [delegation_of_parent under, value_eq_none empty, value_eq_none empty] at delegated
  exact delegated rfl

private theorem Removed.mem_names (removed : Removed deleted s s') (name : Text) :
    name ∈ s'.names ↔ name ∈ s.names ∧ name ∉ deleted.map Domain.name := by
  simp only [State.names, removed.domains, List.mem_map, List.mem_filter, decide_eq_true_eq]
  constructor
  · rintro ⟨domain, ⟨member, stays⟩, rfl⟩
    exact ⟨⟨domain, member, rfl⟩, stays⟩
  · rintro ⟨⟨domain, member, rfl⟩, stays⟩
    exact ⟨domain, ⟨member, stays⟩, rfl⟩

private theorem Removed.value (removed : Removed deleted s s') (name : Text) (item : Item) :
    value s'.db name item =
      if name ∈ deleted.map Domain.name then none else Changes.Models.value s.db name item := by
  rw [Changes.Models.value, removed.lookup]
  split
  · rfl
  · rfl

private theorem Removed.delegation_of_mem (removed : Removed deleted s s') {name parent : Text}
    (under : parentDomainName name = some parent) (gone : parent ∈ deleted.map Domain.name) :
    delegation s'.db name = (none, none) := by
  rw [delegation_of_parent under, removed.value, removed.value, if_pos gone, if_pos gone]

private theorem Removed.delegation_of_not_mem (removed : Removed deleted s s') {name : Text}
    (stays : ∀ parent, parentDomainName name = some parent → parent ∉ deleted.map Domain.name) :
    delegation s'.db name = delegation s.db name := by
  cases under : parentDomainName name with
  | none => simp only [delegation, under]
  | some parent =>
    rw [delegation_of_parent under, delegation_of_parent under, removed.value, removed.value,
      if_neg (stays parent under), if_neg (stays parent under)]

private theorem Undelegated.delegation_of_mem {db db' : Database}
    (undelegated : Undelegated domains db db')
    {domain : Domain} (member : domain ∈ domains) : delegation db' domain.name = (none, none) := by
  cases under : parentDomainName domain.name with
  | none => simp only [delegation, under]
  | some parent =>
    rw [delegation_of_parent under, undelegated.gone _ _ ⟨domain, member, under, .inl rfl⟩,
      undelegated.gone _ _ ⟨domain, member, under, .inr rfl⟩]

private theorem Undelegated.delegation_of_not_mem {db db' : Database}
    (undelegated : Undelegated domains db db') {name : Text}
    (other : name ∉ domains.map Domain.name) : delegation db' name = delegation db name := by
  cases under : parentDomainName name with
  | none => simp only [delegation, under]
  | some parent =>
    have spared (type : Text) : ¬ Delegates domains parent (delegating type name) := by
      rintro ⟨domain, member, above, same⟩
      apply other
      have labels : (partitionedName name).1 = (partitionedName domain.name).1 := by
        rcases same with same | same
        · exact congrArg Prod.snd same
        · exact congrArg Prod.snd same
      rw [name_eq under, labels, ← name_eq above]
      exact List.mem_map_of_mem member
    rw [delegation_of_parent under, delegation_of_parent under,
      undelegated.kept _ _ (spared ns), undelegated.kept _ _ (spared ds)]

private theorem eq_nil_of_parents (parents : ∀ domain ∈ deleted, ∃ parent ∈ deleted.map Domain.name,
    parentDomainName domain.name = some parent) : deleted = [] := by
  have descent : ∀ length, ∀ domain ∈ deleted, domain.name.length = length → False := by
    intro length
    induction length using Nat.strongRecOn with
    | ind length ih =>
      intro domain member long
      obtain ⟨parent, above, under⟩ := parents domain member
      obtain ⟨other, there, rfl⟩ := List.mem_map.mp above
      have shorter := length_parent_lt under
      exact ih other.name.length (by omega) other there rfl
  cases deleted with
  | nil => rfl
  | cons domain rest => exact (descent _ domain List.mem_cons_self rfl).elim

/-- As long as the delegations are not updated, whatever is deleted leaves one behind. -/
theorem clean_of_removed_iff (removed : Removed deleted s s')
    (rows : ∀ domain ∈ deleted, domain ∈ s.domains)
    (delegated : ∀ domain ∈ deleted, delegation s.db domain.name ≠ (none, none)) :
    Clean s s' ↔ deleted = [] := by
  constructor
  · intro clean
    apply eq_nil_of_parents
    intro domain member
    by_contra apart
    push Not at apart
    have here : domain.name ∈ s.names := List.mem_map_of_mem (rows domain member)
    have away : domain.name ∉ s'.names := fun still =>
      ((removed.mem_names _).mp still).2 (List.mem_map_of_mem member)
    have empty := clean.gone domain.name here away
    rw [removed.delegation_of_not_mem fun parent under above => apart parent above under] at empty
    exact delegated domain member empty
  · rintro rfl
    constructor
    · intro name here away
      exact absurd ((removed.mem_names name).mpr ⟨here, by simp⟩) away
    · intro name _
      exact removed.delegation_of_not_mem (by simp)

/-- After the update, only the zones that are gone may have taken delegations with them. -/
theorem clean_of_undelegated_iff (removed : Removed domains s s') {db : Database}
    (undelegated : Undelegated domains s'.db db) (parented : Parented s'.db domains) :
    Clean s { s' with db } ↔
      ∀ child ∈ s.names, ∀ domain ∈ domains, parentDomainName child = some domain.name →
        delegation s.db child = (none, none) := by
  have names (name : Text) : name ∈ ({ s' with db } : State).names ↔
      name ∈ s.names ∧ name ∉ domains.map Domain.name := removed.mem_names name
  constructor
  · intro clean child here domain member under
    have parent : domain.name ∈ domains.map Domain.name := List.mem_map_of_mem member
    have stays : child ∉ domains.map Domain.name := by
      intro goes
      obtain ⟨other, there, rfl⟩ := List.mem_map.mp goes
      have present := parented other there domain.name under
      rw [removed.lookup, if_pos parent] at present
      cases present
    have same := clean.kept child ((names child).mpr ⟨here, stays⟩)
    rw [← same]
    exact (undelegated.delegation_of_not_mem stays).trans (removed.delegation_of_mem under parent)
  · intro spared
    constructor
    · intro name here away
      have goes : name ∈ domains.map Domain.name := by
        by_contra stays
        exact away ((names name).mpr ⟨here, stays⟩)
      obtain ⟨domain, member, rfl⟩ := List.mem_map.mp goes
      exact undelegated.delegation_of_mem member
    · intro name there
      obtain ⟨here, stays⟩ := (names name).mp there
      refine (undelegated.delegation_of_not_mem stays).trans ?_
      by_cases zone : ∃ parent ∈ domains.map Domain.name, parentDomainName name = some parent
      · obtain ⟨parent, above, under⟩ := zone
        obtain ⟨domain, member, rfl⟩ := List.mem_map.mp above
        rw [spared name here domain member under]
        exact removed.delegation_of_mem under (List.mem_map_of_mem member)
      · push Not at zone
        exact removed.delegation_of_not_mem fun parent under above => zone parent above under

end Delegations

/-- For expired domains that local public suffixes delegate, no dangling delegation is left behind
exactly when nothing is deleted or everything goes through. -/
theorem deleteDomains_clean_iff (localPublicSuffixes : Finset Text) (defaultNS : List Text)
    (active : Nat → Bool) (now inactiveDays : Nat) (faults : Faults) (s : State)
    (registrable : ∀ domain ∈ expiredDomains active now inactiveDays s,
      isLocallyRegistrable localPublicSuffixes domain.name = true)
    (delegated : ∀ domain ∈ expiredDomains active now inactiveDays s,
      delegation s.db domain.name ≠ (none, none)) :
    Clean s (deleteDomains localPublicSuffixes defaultNS active now inactiveDays faults s).1 ↔
      Idle faults.round (expiredDomains active now inactiveDays s) ∨
        Smooth faults (expiredDomains active now inactiveDays s) s := by
  have rows : ∀ domain ∈ expiredDomains active now inactiveDays s, domain ∈ s.domains :=
    fun domain member => List.mem_of_mem_filter member
  rw [deleteDomains]
  generalize expiredDomains active now inactiveDays s = domains at *
  obtain ⟨deleted, first, removed, all, whole, idle⟩ := deleteEach_spec faults.round domains s
  obtain ⟨s', goes⟩ : ∃ result, deleteEach faults.round domains s = result := ⟨_, rfl⟩
  rw [goes] at removed all whole ⊢
  -- what is left where the delegations are not updated
  have torn : Clean s s'.1 ↔ Idle faults.round domains := by
    rw [← idle]
    exact clean_of_removed_iff removed (fun domain member => rows domain (first.subset member))
      fun domain member => delegated domain (first.subset member)
  obtain ⟨s', returned⟩ := s'
  cases returned with
  | false =>
    rw [torn, iff_self_or]
    intro smooth
    cases all.mpr smooth.rounds
  | true =>
    obtain rfl := whole rfl
    have quiet := all.mp rfl
    simp only [delegateEach]
    rcases autoDelegateEach_cases defaultNS deleted s'.db registrable with
      ⟨missing, failed⟩ | ⟨parented, db, done, undelegated⟩
    · rw [failed, torn, iff_self_or]
      intro smooth
      apply absurd _ missing
      intro domain member parent under
      rw [removed.lookup]
      split
      · next above =>
        obtain ⟨other, there, rfl⟩ := List.mem_map.mp above
        have here : domain.name ∈ s.names := List.mem_map_of_mem (rows domain member)
        exact absurd (smooth.parents domain.name here other there under) (delegated domain member)
      · exact lookup_of_delegation under (delegated domain member)
    · have updated : Clean s { s' with db } ↔ Idle faults.round deleted ∨
          ∀ child ∈ s.names, ∀ domain ∈ deleted, parentDomainName child = some domain.name →
            delegation s.db child = (none, none) := by
        rw [clean_of_undelegated_iff removed undelegated parented, iff_or_self]
        intro nothing child _ domain member
        rw [idle.mpr nothing] at member
        cases member
      rw [done]
      cases fault : faults.delegation with
      | rolledBack =>
        rw [torn, iff_self_or]
        intro smooth
        exact absurd fault smooth.delegation
      | none =>
        rw [updated]
        exact or_congr_right ⟨fun spared => ⟨quiet, by simp [fault], spared⟩, Smooth.parents⟩
      | committed =>
        rw [updated]
        exact or_congr_right ⟨fun spared => ⟨quiet, by simp [fault], spared⟩, Smooth.parents⟩

def suffix : Text := "dedyn.io".toList

/-- A domain that has not been used since it was created. -/
def unused (id owner : Nat) (name : Text) : Domain where
  id
  name
  owner
  renewalState := .warned
  renewalChanged := 0
  touched := [0]
  published := none

def nsRRset : RRset := ⟨3600, {"ns1.desec.io.".toList}⟩

def dsRRset : RRset := ⟨300, {"1 13 2 00".toList}⟩

/-- A local public suffix that delegates two domains. -/
def delegatingState : State where
  domains := [{ unused 1 1 suffix with renewalState := .immortal },
    unused 2 2 "a.dedyn.io".toList, unused 3 3 "b.dedyn.io".toList]
  db := Finmap.insert suffix
    (Finmap.insert (ns, "a".toList) nsRRset (Finmap.insert (ds, "a".toList) dsRRset
      (Finmap.insert (ns, "b".toList) nsRRset (Finmap.insert (ds, "b".toList) dsRRset ∅))))
    (Finmap.insert "a.dedyn.io".toList ∅ (Finmap.insert "b.dedyn.io".toList ∅ ∅))
  users := [1, 2, 3]

/-- PowerDNS refuses to delete the zone of a domain. -/
def refusing (name : Text) : Faults where
  round := fun other => if other = name then .rolledBack else .none
  delegation := .none

private theorem expired_delegatingState :
    expiredDomains (fun _ => true) (300 * Scavenge.day) 211 delegatingState =
      [unused 2 2 "a.dedyn.io".toList, unused 3 3 "b.dedyn.io".toList] := by
  decide +kernel

theorem clean_delegatingState :
    Clean delegatingState (deleteDomains {suffix} ["ns1.desec.io.".toList] (fun _ => true)
      (300 * Scavenge.day) 211 (refusing "c.dedyn.io".toList) delegatingState).1 := by
  apply (deleteDomains_clean_iff {suffix} ["ns1.desec.io.".toList] (fun _ => true)
    (300 * Scavenge.day) 211 (refusing "c.dedyn.io".toList) delegatingState ?_ ?_).mpr
  · right
    rw [expired_delegatingState]
    exact ⟨by decide +kernel, by decide, by decide +kernel⟩
  · rw [expired_delegatingState]
    decide +kernel
  · rw [expired_delegatingState]
    decide +kernel

/-- The first domain is gone, and its delegation is still there. -/
theorem refused_dangling :
    ¬ Clean delegatingState (deleteDomains {suffix} ["ns1.desec.io.".toList] (fun _ => true)
      (300 * Scavenge.day) 211 (refusing "b.dedyn.io".toList) delegatingState).1 := by
  intro clean
  have left := clean.gone "a.dedyn.io".toList (by decide +kernel) (by decide +kernel)
  revert left
  decide +kernel

end DesecStack.Domains.Delegation
