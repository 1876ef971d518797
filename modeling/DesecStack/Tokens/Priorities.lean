/- module: DesecStack/Tokens/Priorities
   source: api/desecapi/models/tokens.py, api/desecapi/permissions.py, docs/auth/tokens.rst
   digest: The documented priorities of policies, the query that looks one up, and what may safely
     be deleted. -/

import DesecStack.Tokens.Policies
import Mathlib.Data.Char
import Mathlib.Data.List.Lex
import Mathlib.Data.List.Sort
import Mathlib.Data.Prod.Lex
import Mathlib.Order.WithBot

set_option autoImplicit false
set_option relaxedAutoImplicit false

namespace DesecStack.Tokens.Priorities

open Library.PyText (Text)
open Policies

section Lookup

/-- A column in the order `asc(nulls_last=True)`: null is greater than all values. -/
def nullsLast : Option Text → WithTop Text
  | some value => (value : WithTop Text)
  | none => ⊤

/-- The key of the three-column order of `get_policy`. -/
def orderKey (policy : TokenDomainPolicy) : WithTop Text ×ₗ WithTop Text ×ₗ WithTop Text :=
  toLex (nullsLast policy.domain, toLex (nullsLast policy.subname, nullsLast policy.type))

/-- `get_policy`, as a query: the filter, the order, and the first row. -/
def firstPolicy (policies : List TokenDomainPolicy) (rrset : Option RRsetKey) :
    Option TokenDomainPolicy :=
  ((policies.filter (TokenDomainPolicy.covers rrset)).insertionSort fun one other =>
    orderKey one ≤ orderKey other).head?

/-- A cell of the table in the documentation. -/
inductive Cell where
  | match
  | null

def Cell.admits (wanted : Text) (value : Option Text) : Cell → Bool
  | .match => value = some wanted
  | .null => value = none

/-- The documented table: rows by priority, with the columns `domain`, `subname` and `type`. -/
def priorityTable : List (Cell × Cell × Cell) :=
  [(.match, .match, .match),
   (.match, .match, .null),
   (.match, .null, .match),
   (.match, .null, .null),
   (.null, .match, .match),
   (.null, .match, .null),
   (.null, .null, .match),
   (.null, .null, .null)]

/-- A row of the table matches a policy and an RRset. -/
def rowMatches (rrset : RRsetKey) (policy : TokenDomainPolicy) (row : Cell × Cell × Cell) : Bool :=
  row.1.admits rrset.1 policy.domain && row.2.1.admits rrset.2.2 policy.subname &&
    row.2.2.admits rrset.2.1 policy.type

/-- The documented priority at which a policy matches an RRset, if it does. -/
def priority (rrset : RRsetKey) (policy : TokenDomainPolicy) : Option Nat :=
  (priorityTable.findIdx? (rowMatches rrset policy)).map (· + 1)

/-- The policy matches the RRset at a larger priority number than the one in effect. -/
def Overruled (policies : List TokenDomainPolicy) (rrset : RRsetKey)
    (policy : TokenDomainPolicy) : Prop :=
  ∃ inEffect n m, firstPolicy policies (some rrset) = some inEffect ∧
    priority rrset inEffect = some n ∧ priority rrset policy = some m ∧ n < m

end Lookup

section Columns

variable {rrset : RRsetKey} {one other policy : TokenDomainPolicy}

/-- The columns of a policy that covers an RRset are those of the RRset, or null. -/
theorem columns_of_covers (covers : policy.covers (some rrset) = true) :
    (policy.domain = some rrset.1 ∨ policy.domain = none) ∧
      (policy.subname = some rrset.2.2 ∨ policy.subname = none) ∧
        (policy.type = some rrset.2.1 ∨ policy.type = none) := by
  simpa [TokenDomainPolicy.covers, and_assoc] using covers

private theorem priority_of_covers (covers : policy.covers (some rrset) = true) :
    priority rrset policy = some (policy.rank + 1) := by
  obtain ⟨domain, subname, type⟩ := columns_of_covers covers
  rcases domain with domain | domain <;> rcases subname with subname | subname <;>
    rcases type with type | type <;>
    simp [priority, priorityTable, rowMatches, Cell.admits, List.findIdx?_cons,
      TokenDomainPolicy.rank, domain, subname, type]

private theorem priority_of_not_covers (covers : policy.covers (some rrset) = false) :
    priority rrset policy = none := by
  have unmatched : ∀ row ∈ priorityTable, rowMatches rrset policy row = false := by
    intro row _
    by_contra matched
    rw [Bool.not_eq_false, rowMatches, Bool.and_eq_true, Bool.and_eq_true] at matched
    obtain ⟨⟨domain, subname⟩, type⟩ := matched
    have column : ∀ {cell : Cell} {wanted : Text} {value : Option Text},
        cell.admits wanted value = true → value = some wanted ∨ value = none := by
      intro cell wanted value admitted
      cases cell with
      | «match» => exact .inl (by simpa [Cell.admits] using admitted)
      | null => exact .inr (by simpa [Cell.admits] using admitted)
    have covered : policy.covers (some rrset) = true := by
      simp [TokenDomainPolicy.covers, column domain, column subname, column type]
    rw [covered] at covers
    exact Bool.noConfusion covers
  rw [priority, List.findIdx?_eq_none_iff.mpr unmatched, Option.map_none]

private theorem priority_eq_none_iff :
    priority rrset policy = none ↔ policy.covers (some rrset) = false := by
  constructor
  · intro unmatched
    by_contra covers
    rw [Bool.not_eq_false] at covers
    rw [priority_of_covers covers] at unmatched
    exact Option.some_ne_none _ unmatched
  · exact priority_of_not_covers

/-- Among policies that cover one RRset, the order of the query is that of the table. -/
theorem orderKey_le_iff (here : one.covers (some rrset) = true)
    (there : other.covers (some rrset) = true) :
    orderKey one ≤ orderKey other ↔ one.rank ≤ other.rank := by
  obtain ⟨domain, subname, type⟩ := columns_of_covers here
  obtain ⟨domain', subname', type'⟩ := columns_of_covers there
  rcases domain with domain | domain <;> rcases domain' with domain' | domain' <;>
    rcases subname with subname | subname <;> rcases subname' with subname' | subname' <;>
    rcases type with type | type <;> rcases type' with type' | type' <;>
    simp [orderKey, nullsLast, Prod.Lex.toLex_le_toLex, TokenDomainPolicy.rank, domain, domain',
      subname, subname', type, type']

private theorem scope_eq_of_rank (here : one.covers (some rrset) = true)
    (there : other.covers (some rrset) = true) (same : one.rank = other.rank) :
    one.scope = other.scope := by
  obtain ⟨domain, subname, type⟩ := columns_of_covers here
  obtain ⟨domain', subname', type'⟩ := columns_of_covers there
  rcases domain with domain | domain <;> rcases domain' with domain' | domain' <;>
    rcases subname with subname | subname <;> rcases subname' with subname' | subname' <;>
    rcases type with type | type <;> rcases type' with type' | type' <;>
    simp [TokenDomainPolicy.rank, TokenDomainPolicy.scope, domain, domain', subname, subname',
      type, type'] at same ⊢

end Columns

section First

variable {policies : List TokenDomainPolicy} {rrset : Option RRsetKey} {policy : TokenDomainPolicy}

/-- The first row covers the RRset, and no row that covers it comes earlier in the order. -/
theorem firstPolicy_spec (first : firstPolicy policies rrset = some policy) :
    policy ∈ policies ∧ policy.covers rrset = true ∧
      ∀ other ∈ policies, other.covers rrset = true → orderKey policy ≤ orderKey other := by
  unfold firstPolicy at first
  have sorted := List.pairwise_insertionSort
    (fun one other : TokenDomainPolicy => orderKey one ≤ orderKey other)
    (policies.filter (TokenDomainPolicy.covers rrset))
  obtain ⟨rest, rows⟩ := List.head?_eq_some_iff.mp first
  have member : ∀ other, other ∈ policy :: rest ↔ other ∈ policies ∧ other.covers rrset = true := by
    intro other
    rw [← rows, List.mem_insertionSort, List.mem_filter]
  rw [rows, List.pairwise_cons] at sorted
  have here := (member policy).mp (List.mem_cons_self ..)
  refine ⟨here.1, here.2, ?_⟩
  intro other inside covers
  rcases List.mem_cons.mp ((member other).mpr ⟨inside, covers⟩) with rfl | later
  · exact le_rfl
  · exact sorted.1 other later

private theorem firstPolicy_eq_none_iff :
    firstPolicy policies rrset = none ↔ ∀ policy ∈ policies, policy.covers rrset = false := by
  unfold firstPolicy
  rw [List.head?_eq_none_iff, ← List.length_eq_zero_iff, List.length_insertionSort,
    List.length_eq_zero_iff, List.filter_eq_nil_iff]
  simp

private theorem firstPolicy_of_least {rrset : RRsetKey} (member : policy ∈ policies)
    (covers : policy.covers (some rrset) = true)
    (least : ∀ other ∈ policies, other.covers (some rrset) = true → other ≠ policy →
      policy.rank < other.rank) :
    firstPolicy policies (some rrset) = some policy := by
  cases first : firstPolicy policies (some rrset) with
  | none =>
    rw [firstPolicy_eq_none_iff.mp first policy member] at covers
    exact Bool.noConfusion covers
  | some winner =>
    obtain ⟨inside, covered, smallest⟩ := firstPolicy_spec first
    by_contra different
    have larger := least winner inside covered fun same => different (congrArg some same)
    have smaller := (orderKey_le_iff covered covers).mp (smallest policy member covers)
    omega

private theorem rank_lt_of_firstPolicy {rrset : RRsetKey}
    (unique : (policies.map TokenDomainPolicy.scope).Nodup)
    (first : firstPolicy policies (some rrset) = some policy) {other : TokenDomainPolicy}
    (member : other ∈ policies) (covers : other.covers (some rrset) = true)
    (different : other ≠ policy) : policy.rank < other.rank := by
  obtain ⟨inside, covered, smallest⟩ := firstPolicy_spec first
  have le := (orderKey_le_iff covered covers).mp (smallest other member covers)
  refine lt_of_le_of_ne le ?_
  intro same
  exact different (List.inj_on_of_nodup_map unique member inside
    (scope_eq_of_rank covered covers same).symm)

/-- The query gives the policy in effect that the other parts of the development refer to. -/
theorem firstPolicy_eq_getPolicy {rrset : RRsetKey}
    (unique : (policies.map TokenDomainPolicy.scope).Nodup) :
    firstPolicy policies (some rrset) = getPolicy policies (some rrset) := by
  cases inEffect : getPolicy policies (some rrset) with
  | none =>
    rw [firstPolicy_eq_none_iff]
    have empty := List.argmin_eq_none.mp inEffect
    intro policy member
    by_contra covers
    rw [Bool.not_eq_false] at covers
    have listed := List.mem_filter.mpr ⟨member, covers⟩
    rw [empty] at listed
    cases listed
  | some policy =>
    have found := List.mem_filter.mp (List.argmin_mem inEffect)
    refine firstPolicy_of_least found.1 found.2 ?_
    intro other member covers different
    have le : policy.rank ≤ other.rank :=
      List.le_of_mem_argmin (List.mem_filter.mpr ⟨member, covers⟩) inEffect
    refine lt_of_le_of_ne le ?_
    intro same
    exact different (List.inj_on_of_nodup_map unique member found.1
      (scope_eq_of_rank found.2 covers same).symm)

end First

section Lookup

variable {policies : List TokenDomainPolicy} {rrset : RRsetKey} {policy : TokenDomainPolicy}

private theorem firstPolicy_eq_some_iff (unique : (policies.map TokenDomainPolicy.scope).Nodup) :
    firstPolicy policies (some rrset) = some policy ↔
      policy ∈ policies ∧ ∃ n, priority rrset policy = some n ∧
        ∀ other ∈ policies, other ≠ policy → ∀ m, priority rrset other = some m → n < m := by
  have covers_of_priority : ∀ {other : TokenDomainPolicy} {m : Nat},
      priority rrset other = some m → other.covers (some rrset) = true ∧ m = other.rank + 1 := by
    intro other m matched
    have covers : other.covers (some rrset) = true := by
      by_contra covers
      rw [priority_of_not_covers (Bool.not_eq_true _ ▸ covers)] at matched
      cases matched
    rw [priority_of_covers covers, Option.some.injEq] at matched
    exact ⟨covers, matched.symm⟩
  constructor
  · intro first
    have spec := firstPolicy_spec first
    refine ⟨spec.1, policy.rank + 1, priority_of_covers spec.2.1, ?_⟩
    intro other member different m matched
    obtain ⟨covers, rfl⟩ := covers_of_priority matched
    have lt := rank_lt_of_firstPolicy unique first member covers different
    omega
  · rintro ⟨member, n, matched, least⟩
    obtain ⟨covers, rfl⟩ := covers_of_priority matched
    refine firstPolicy_of_least member covers ?_
    intro other inside covered different
    have lt := least other inside different _ (priority_of_covers covered)
    omega

/-- What does not win takes no part: the first row depends on a set of policies only through the
rows that the RRset matches at the least priority. -/
theorem firstPolicy_of_perm_cons {policies' : List TokenDomainPolicy} {other : TokenDomainPolicy}
    (unique : (policies.map TokenDomainPolicy.scope).Nodup)
    (same : policies'.Perm (other :: policies))
    (beside : priority rrset other = none ∨ Overruled policies rrset other) :
    firstPolicy policies' (some rrset) = firstPolicy policies (some rrset) := by
  have mem_iff : ∀ policy, policy ∈ policies' ↔ policy = other ∨ policy ∈ policies := by
    intro policy
    rw [same.mem_iff, List.mem_cons]
  cases first : firstPolicy policies (some rrset) with
  | none =>
    rw [firstPolicy_eq_none_iff] at first ⊢
    intro policy member
    rcases (mem_iff policy).mp member with rfl | member
    · rcases beside with unmatched | ⟨_, _, _, inEffect, _⟩
      · exact priority_eq_none_iff.mp unmatched
      · rw [firstPolicy_eq_none_iff.mpr first] at inEffect
        cases inEffect
    · exact first policy member
  | some policy =>
    obtain ⟨inside, covers, -⟩ := firstPolicy_spec first
    refine firstPolicy_of_least ((mem_iff policy).mpr (.inr inside)) covers ?_
    intro rival member covered different
    rcases (mem_iff rival).mp member with rfl | member
    · rcases beside with unmatched | ⟨inEffect, n, m, first', lesser, greater, lt⟩
      · rw [priority_of_covers covered] at unmatched
        cases unmatched
      · rw [first, Option.some.injEq] at first'
        subst first'
        rw [priority_of_covers covers, Option.some.injEq] at lesser
        rw [priority_of_covers covered, Option.some.injEq] at greater
        omega
    · exact rank_lt_of_firstPolicy unique first member covered different

end Lookup

/-- `get_policy` finds the policy of least priority by the documented table; there is only one,
and none is found only if none matches. Policies that do not match, or that match at a larger
priority number, may come and go. -/
theorem first_by_priority {policies : List TokenDomainPolicy} (rrset : RRsetKey)
    (unique : (policies.map TokenDomainPolicy.scope).Nodup) :
    (∀ policy, firstPolicy policies (some rrset) = some policy ↔
      policy ∈ policies ∧ ∃ n, priority rrset policy = some n ∧
        ∀ other ∈ policies, other ≠ policy → ∀ m, priority rrset other = some m → n < m) ∧
    (firstPolicy policies (some rrset) = none ↔
      ∀ policy ∈ policies, priority rrset policy = none) ∧
    (∀ other policies', policies'.Perm (other :: policies) →
      priority rrset other = none ∨ Overruled policies rrset other →
        firstPolicy policies' (some rrset) = firstPolicy policies (some rrset)) ∧
    ∀ other policies', policies.Perm (other :: policies') →
      priority rrset other = none ∨ Overruled policies rrset other →
        firstPolicy policies' (some rrset) = firstPolicy policies (some rrset) := by
  refine ⟨fun policy => firstPolicy_eq_some_iff unique, ?_, ?_, ?_⟩
  · rw [firstPolicy_eq_none_iff]
    exact forall₂_congr fun policy _ => priority_eq_none_iff.symm
  · intro other policies' same beside
    exact firstPolicy_of_perm_cons unique same beside
  · intro other policies' same beside
    have unique' : ((other :: policies').map TokenDomainPolicy.scope).Nodup :=
      (same.map _).nodup_iff.mp unique
    have rest := (List.nodup_cons.mp unique').2
    refine (firstPolicy_of_perm_cons rest same ?_).symm
    refine beside.imp_right ?_
    rintro ⟨inEffect, n, m, first, lesser, greater, lt⟩
    -- What takes effect is another policy, and so it is there without this one.
    have spec := (firstPolicy_eq_some_iff unique).mp first
    have different : inEffect ≠ other := by
      rintro rfl
      rw [lesser, Option.some.injEq] at greater
      omega
    have inside : inEffect ∈ policies' :=
      (List.mem_cons.mp (same.mem_iff.mp spec.1)).resolve_left different
    obtain ⟨n', priority', least⟩ := spec.2
    exact ⟨inEffect, n, m, (firstPolicy_eq_some_iff rest).mpr ⟨inside, n', priority',
      fun rival member => least rival (same.mem_iff.mpr (List.mem_cons_of_mem _ member))⟩,
      lesser, greater, lt⟩

/-- Two policies for one type, and an RRset of the other. -/
theorem first_by_priority_default :
    firstPolicy [⟨1, 7, none, none, none, false⟩, ⟨2, 7, none, none, some ['A'], true⟩]
      (some ("a.test".toList, (['T', 'X', 'T'], []))) = some ⟨1, 7, none, none, none, false⟩ := by
  refine ((first_by_priority _ (by decide)).1 _).mpr ⟨by decide, 8, by decide, ?_⟩
  intro other member different m matched
  have second : other = ⟨2, 7, none, none, some ['A'], true⟩ := by simpa [different] using member
  rw [second] at matched
  exact absurd matched (by decide +revert)

section Deletion

/-- `can_safely_delete_domain` of a token with the given policies. -/
def canSafelyDeleteDomain (policies : List TokenDomainPolicy) (domain : Text) : Bool :=
  let restrictive := fun policy : TokenDomainPolicy => !policy.permWrite
  let forbidden :=
    ((policies.filter fun policy => policy.domain = some domain).filter restrictive).any
        (fun _ => true) ||
      (!((policies.filter fun policy => policy.domain = some domain && policy.subname = none &&
          policy.type = none).filter TokenDomainPolicy.permWrite).any (fun _ => true) &&
        ((policies.filter fun policy => policy.domain = none).filter restrictive).any fun _ => true)
  !forbidden

/-- `HasDeleteDomainPermission`, for a request and its object. -/
def hasDeleteDomainPermission (token : Token) (policies : List TokenDomainPolicy) (domain : Text) :
    Bool :=
  token.permDeleteDomain && canSafelyDeleteDomain policies domain

variable {policies : List TokenDomainPolicy} {domain : Text}

theorem canSafelyDeleteDomain_iff :
    canSafelyDeleteDomain policies domain = true ↔
      (∀ policy ∈ policies, policy.domain = some domain → policy.permWrite = true) ∧
        ((∃ policy ∈ policies, policy.scope = (some domain, none, none) ∧
            policy.permWrite = true) ∨
          ∀ policy ∈ policies, policy.domain = none → policy.permWrite = true) := by
  simp only [canSafelyDeleteDomain, TokenDomainPolicy.scope, Prod.mk.injEq, Bool.not_eq_true',
    Bool.or_eq_false_iff, Bool.and_eq_false_iff, Bool.not_eq_false', List.any_eq_true,
    List.any_eq_false, List.mem_filter, Bool.and_eq_true, decide_eq_true_eq, and_true,
    not_true_eq_false, imp_false, not_and, Bool.not_eq_false, and_assoc]

/-- If a domain may be deleted, the policy in effect permits to write whatever RRset of it. -/
theorem deletable_only_if_writable (policies : List TokenDomainPolicy) (domain : Text)
    (safe : canSafelyDeleteDomain policies domain = true) (subname type : Text)
    (policy : TokenDomainPolicy)
    (inEffect : firstPolicy policies (some (domain, (type, subname))) = some policy) :
    policy.permWrite = true := by
  obtain ⟨specific, general⟩ := canSafelyDeleteDomain_iff.mp safe
  obtain ⟨member, covers, least⟩ := firstPolicy_spec inEffect
  rcases (columns_of_covers covers).1 with own | null
  · exact specific policy member own
  rcases general with ⟨default, inside, scope, _⟩ | permissive
  · -- A policy for the domain comes before those for all domains.
    obtain ⟨ownDomain, nullSubname, nullType⟩ :
        default.domain = some domain ∧ default.subname = none ∧ default.type = none := by
      simpa [TokenDomainPolicy.scope] using scope
    have covered : default.covers (some (domain, (type, subname))) = true := by
      simp [TokenDomainPolicy.covers, ownDomain, nullSubname, nullType]
    have le := (orderKey_le_iff covers covered).mp (least default inside covered)
    have apart : default.rank < policy.rank := by
      have small : default.rank = 3 := by
        simp [TokenDomainPolicy.rank, ownDomain, nullSubname, nullType]
      have large : 4 ≤ policy.rank := by
        simp [TokenDomainPolicy.rank, null, Nat.add_assoc]
      omega
    omega
  · exact permissive policy member null

/-- The permissive policy for one domain outweighs the restrictive default. -/
theorem deletable_only_if_writable_own :
    TokenDomainPolicy.permWrite ⟨2, 7, some ['a'], none, none, true⟩ = true :=
  deletable_only_if_writable
    [⟨1, 7, none, none, none, false⟩, ⟨2, 7, some ['a'], none, none, true⟩] ['a'] (by decide)
    ['w'] ['A'] ⟨2, 7, some ['a'], none, none, true⟩ (by decide)

end Deletion

end DesecStack.Tokens.Priorities
