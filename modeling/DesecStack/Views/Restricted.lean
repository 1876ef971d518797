/- module: DesecStack/Views/Restricted
   layer: main results
   digest: What an override token with policies can learn of the other domains of the account. -/

import DesecStack.Views.Reads

set_option autoImplicit false
set_option relaxedAutoImplicit false

namespace DesecStack.Views.Restricted

open Library.PyText
open Changes.Models (cleanDomain typesAutomatic)
open Tokens.Policies
open Reads
open Writes (Query)

variable (reader : Reader)

/-- A domain of the user that the token has no policy for. -/
def hidden (row : DomainRow) : Bool :=
  row.owner = reader.token.userId && !hasPolicy reader row.name

/-- Names are valid and unique, and policies are for domains of the user. -/
structure WellFormed (rows : List DomainRow) : Prop where
  nodup : (rows.map DomainRow.name).Nodup
  clean (row : DomainRow) (member : row ∈ rows) : cleanDomain reader.unicode row.name = true
  policies (name : Text) (has : hasPolicy reader name = true) :
    ∃ row ∈ rows, row.name = name ∧ row.owner = reader.token.userId

/-- Two states differ in hidden domains only. -/
def SameVisible (rows others : List DomainRow) : Prop :=
  rows.filter (fun row => !hidden reader row) = others.filter fun row => !hidden reader row

/-- A request gives the same response in all states that differ in hidden domains only. -/
def Blind (request : ReadRequest) : Prop :=
  ∀ rows others, WellFormed reader rows → WellFormed reader others →
    SameVisible reader rows others → respond reader rows request = respond reader others request

/-- The token acts for another user, and has policies. -/
structure Restricts : Prop where
  override : reader.token.userOverride.isSome = true
  conditions : reader.token.userOverrideConditions
  policies : reader.policies ≠ []
  clean (name : Text) (has : hasPolicy reader name = true) :
    cleanDomain reader.unicode name = true

/-- The domain in the URL of a request on RRsets. -/
def rrsetsOf : ReadRequest → Option Text
  | .listRRsets name _ | .retrieveRRset name _ => some name
  | .listDomains _ | .retrieveDomain _ _ | .zonefile _ _ => none

section Same

variable {reader} {rows others : List DomainRow}

private theorem domainQueryset_eq (restricts : Restricts reader)
    (same : SameVisible reader rows others) (ownsQname : Option Text) :
    domainQueryset reader rows ownsQname = domainQueryset reader others ownsQname := by
  have visible (l : List DomainRow) :
      (ownDomains reader l).filter (fun row => hasPolicy reader row.name)
        = (l.filter fun row => !hidden reader row).filter fun row =>
          decide (row.owner = reader.token.userId) && hasPolicy reader row.name := by
    rw [ownDomains, List.filter_filter, List.filter_filter]
    congr 1
    funext row
    by_cases own : row.owner = reader.token.userId <;>
      cases has : hasPolicy reader row.name <;> simp [hidden, own, has]
  have nonempty : reader.policies.isEmpty = false := by
    simpa using restricts.policies
  simp only [domainQueryset, restricts.override, nonempty, Bool.not_false, Bool.and_self, if_true,
    visible, SameVisible] at same ⊢
  rw [same]

private theorem domainObject_eq (restricts : Restricts reader)
    (same : SameVisible reader rows others) (name : Text) (ownsQname : Option Text)
    (show? : DomainRow → Response) :
    domainObject reader rows name ownsQname show?
      = domainObject reader others name ownsQname show? := by
  simp only [domainObject, domainQueryset_eq restricts same]

private theorem viewDomain_eq (same : SameVisible reader rows others) {name : Text}
    (has : hasPolicy reader name = true) :
    viewDomain reader rows name = viewDomain reader others name := by
  have visible (l : List DomainRow) : viewDomain reader l name
      = (l.filter fun row => !hidden reader row).find? fun row =>
          decide (row.owner = reader.token.userId) && decide (row.name = name) := by
    rw [viewDomain, ownDomains, List.find?_filter, List.find?_filter]
    congr 1
    funext row
    by_cases own : row.owner = reader.token.userId <;> by_cases named : row.name = name <;>
      simp [hidden, own, named, has]
  rw [visible, visible, same]

private theorem viewDomain_unclean (wellFormed : WellFormed reader rows) {name : Text}
    (unclean : cleanDomain reader.unicode name = false) : viewDomain reader rows name = none := by
  rw [viewDomain, List.find?_eq_none]
  intro row member named
  have inRows := List.mem_of_mem_filter member
  have clean := wellFormed.clean row inRows
  rw [of_decide_eq_true named, unclean] at clean
  exact absurd clean (by simp)

end Same

/-- A domain of the user with nothing special about it. -/
private def ownRow (name : Text) (rrsets : List RRsetRow) : DomainRow :=
  ⟨name, reader.token.userId, 0, none, 0, 3600, [], [], rrsets⟩

/-- The domains that the policies are for. -/
private def policyRows : List DomainRow :=
  ((reader.policies.filterMap TokenDomainPolicy.domain).dedup).map fun name => ownRow reader name []

/-- What is asked for. -/
private def wanted : ReadRequest → List RRsetRow
  | .retrieveRRset _ item => [⟨item.1, item.2, 0, 0, 3600, []⟩]
  | _ => []

section Different

variable {reader} (restricts : Restricts reader)
include restricts

omit restricts in
private theorem hasPolicy_iff (name : Text) :
    name ∈ (reader.policies.filterMap TokenDomainPolicy.domain).dedup ↔
      hasPolicy reader name = true := by
  simp [hasPolicy, List.mem_filterMap]

private theorem wellFormed_policyRows : WellFormed reader (policyRows reader) := by
  constructor
  · simp [policyRows, Function.comp_def, ownRow, List.nodup_dedup]
  · intro row member
    obtain ⟨name, inPolicies, rfl⟩ := List.mem_map.mp member
    exact restricts.clean name ((hasPolicy_iff name).mp inPolicies)
  · intro name has
    refine ⟨ownRow reader name [], List.mem_map.mpr ⟨name, ?_, rfl⟩, rfl, rfl⟩
    exact (hasPolicy_iff name).mpr has

private theorem wellFormed_cons {name : Text} (rrsets : List RRsetRow)
    (unlisted : hasPolicy reader name = false) (clean : cleanDomain reader.unicode name = true) :
    WellFormed reader (ownRow reader name rrsets :: policyRows reader) := by
  have base := wellFormed_policyRows restricts
  constructor
  · rw [List.map_cons, List.nodup_cons]
    refine ⟨fun member => ?_, base.nodup⟩
    obtain ⟨row, inRows, same⟩ := List.mem_map.mp member
    obtain ⟨other, inPolicies, rfl⟩ := List.mem_map.mp inRows
    have has := (hasPolicy_iff other).mp inPolicies
    obtain rfl : other = name := same
    rw [unlisted] at has
    exact absurd has (by simp)
  · intro row member
    rcases List.mem_cons.mp member with rfl | member
    · exact clean
    · exact base.clean row member
  · intro other has
    obtain ⟨row, member, named, owned⟩ := base.policies other has
    exact ⟨row, List.mem_cons_of_mem _ member, named, owned⟩

omit restricts in
private theorem viewDomain_policyRows {name : Text} (unlisted : hasPolicy reader name = false) :
    viewDomain reader (policyRows reader) name = none := by
  rw [viewDomain, List.find?_eq_none]
  intro row member named
  obtain ⟨other, inPolicies, rfl⟩ := List.mem_map.mp (List.mem_of_mem_filter member)
  have has := (hasPolicy_iff other).mp inPolicies
  obtain rfl : other = name := of_decide_eq_true named
  rw [unlisted] at has
  exact absurd has (by simp)

omit restricts in
private theorem viewDomain_cons (name : Text) (rrsets : List RRsetRow) (rows : List DomainRow) :
    viewDomain reader (ownRow reader name rrsets :: rows) name
      = some (ownRow reader name rrsets) := by
  simp [viewDomain, ownDomains, ownRow]

private theorem isAPIToken_of_restricts : isAPIToken reader.token = true := by
  rcases restricts.conditions with none | ⟨-, mfa, -⟩
  · have override := restricts.override
    simp [none] at override
  · simp [isAPIToken, mfa]

private theorem not_blind {request : ReadRequest} {name : Text}
    (onRRsets : rrsetsOf request = some name) (unlisted : hasPolicy reader name = false)
    (clean : cleanDomain reader.unicode name = true) : ¬ Blind reader request := by
  intro blind
  have same : SameVisible reader (ownRow reader name (wanted request) :: policyRows reader)
      (policyRows reader) := by
    simp [SameVisible, hidden, ownRow, unlisted]
  have equal := blind _ _ (wellFormed_cons restricts (wanted request) unlisted clean)
    (wellFormed_policyRows restricts) same
  cases request with
  | listRRsets other query =>
    obtain rfl := Option.some.inj onRRsets
    simp only [respond, isAPIToken_of_restricts restricts, Bool.true_or, if_true, viewDomain_cons,
      viewDomain_policyRows unlisted, listRRsets] at equal
    split at equal <;> exact absurd equal (by simp)
  | retrieveRRset other item =>
    obtain rfl := Option.some.inj onRRsets
    simp only [respond, isAPIToken_of_restricts restricts, Bool.true_or, if_true, viewDomain_cons,
      viewDomain_policyRows unlisted] at equal
    simp [retrieveRRset, ownRow, wanted] at equal
  | listDomains _ => simp [rrsetsOf] at onRRsets
  | retrieveDomain _ _ => simp [rrsetsOf] at onRRsets
  | zonefile _ _ => simp [rrsetsOf] at onRRsets

end Different

/-- The token learns nothing of hidden domains exactly from requests on domains, and from those on
the RRsets of a domain that it has a policy for, or that cannot exist. -/
theorem blind_iff (request : ReadRequest) (restricts : Restricts reader) :
    Blind reader request ↔ ∀ name, rrsetsOf request = some name →
      hasPolicy reader name = true ∨ cleanDomain reader.unicode name = false := by
  constructor
  · intro blind name onRRsets
    by_contra neither
    rw [not_or, Bool.not_eq_true, Bool.not_eq_false] at neither
    exact not_blind restricts onRRsets neither.1 neither.2 blind
  · intro visible rows others wellFormed wellFormed' same
    have found (name : Text) (onRRsets : rrsetsOf request = some name) :
        viewDomain reader rows name = viewDomain reader others name := by
      rcases visible name onRRsets with has | unclean
      · exact viewDomain_eq same has
      · rw [viewDomain_unclean wellFormed unclean, viewDomain_unclean wellFormed' unclean]
    unfold respond
    cases request with
    | listDomains ownsQname => simp only [domainQueryset_eq restricts same]
    | retrieveDomain name ownsQname => simp only [domainObject_eq restricts same]
    | zonefile name ownsQname => simp only [domainObject_eq restricts same]
    | listRRsets name query => simp only [found name rfl]
    | retrieveRRset name item => simp only [found name rfl]

section Leak

/-- A token of user 1 that acts for user 2, and is limited to `a.example`. -/
private def reader₀ : Reader where
  unicode := .plain
  token := ⟨0, 1, some 2, none, false, false, false, false⟩
  policies := [⟨0, 0, none, none, none, false⟩, ⟨1, 0, some "a.example".toList, none, none, true⟩]
  mfaEnabled := false

private def row₀ (name : String) : DomainRow :=
  ⟨name.toList, 2, 0, none, 0, 3600, [], [], []⟩

private theorem restricts₀ : Restricts reader₀ where
  override := rfl
  conditions := by decide
  policies := by simp [reader₀]
  clean name has := by
    have same : name = "a.example".toList := by
      simpa [hasPolicy, reader₀, eq_comm] using has
    rw [same]
    decide

/-- The domain that the token has a policy for is the same in all states. -/
theorem blind_iff_retrieveDomain :
    Blind reader₀ (.retrieveDomain "b.example".toList none) :=
  (blind_iff reader₀ (.retrieveDomain "b.example".toList none) restricts₀).mpr fun _ onRRsets =>
    absurd onRRsets (by simp [rrsetsOf])

/-- Listing the RRsets of another domain of the account tells that it exists. -/
theorem hidden_domain_shown :
    Restricts reader₀ ∧ WellFormed reader₀ [row₀ "a.example", row₀ "b.example"] ∧
      WellFormed reader₀ [row₀ "a.example"] ∧
      SameVisible reader₀ [row₀ "a.example", row₀ "b.example"] [row₀ "a.example"] ∧
      respond reader₀ [row₀ "a.example", row₀ "b.example"]
        (.listRRsets "b.example".toList ⟨none, none⟩) = .rrsets [] ∧
      respond reader₀ [row₀ "a.example"] (.listRRsets "b.example".toList ⟨none, none⟩)
        = .notFound := by
  have policies (rows : List DomainRow) (name : Text) (has : hasPolicy reader₀ name = true) :
      ∃ row ∈ row₀ "a.example" :: rows, row.name = name ∧ row.owner = reader₀.token.userId := by
    have same : name = "a.example".toList := by
      simpa [hasPolicy, reader₀, eq_comm] using has
    exact ⟨row₀ "a.example", List.mem_cons_self .., same.symm, rfl⟩
  refine ⟨restricts₀, ⟨by decide, by decide, policies _⟩, ⟨by decide, by decide, policies _⟩, ?_,
    by decide, by decide⟩
  unfold SameVisible
  decide

end Leak

end DesecStack.Views.Restricted
