/- module: DesecStack/Changes/Catalog
   source: api/desecapi/pdns.py, api/desecapi/management/commands/align-catalog-zone.py
   digest: The catalog zone, kept up one domain at a time or written from scratch. -/

import DesecStack.Changes.Pdns
import DesecStack.Library.Runs
import Mathlib.Data.List.DropRight

set_option autoImplicit false
set_option relaxedAutoImplicit false

namespace DesecStack.Changes.Catalog

open Library.PyText
open Pdns (RRsetData Zone absoluteName patch place)

/-- What `hexdigest` returns for SHA-1. -/
def Digest : Type :=
  { text : Text // text.length = 40 ∧ text.all fun c => c ∈ "0123456789abcdef".toList }

/-- The name of a zone as the servers report it, with one final dot. -/
def ZoneName : Type := { name : Text // absoluteName name = name }

instance : DecidableEq ZoneName := inferInstanceAs (DecidableEq (Subtype _))

private theorem absoluteName_idem (name : Text) :
    absoluteName (absoluteName name) = absoluteName name := by
  simp [absoluteName, rstripChar, List.dropWhile_idempotent]

/-- The zone that a name means, spelled with or without final dots. -/
def ZoneName.of (name : Text) : ZoneName := ⟨absoluteName name, absoluteName_idem name⟩

/-- `settings.CATALOG_ZONE` -/
def catalogZone : Text := "catalog.internal".toList

def ns : Text := "NS".toList

def ptr : Text := "PTR".toList

def txt : Text := "TXT".toList

variable (sha1 : Text → Digest)

/-- `construct_catalog_rrset`; `none` is a failed assertion, or a record without content. -/
def constructCatalogRrset (zone : Option Text) (delete : Bool) (subname : Option Text)
    (qtype : Text) (rdata : Option Text) : Option RRsetData :=
  if delete && rdata.any (· ≠ []) then none
  else
    let named (subname rdata : Text) : RRsetData :=
      ⟨stripChar '.' (subname ++ '.' :: catalogZone) ++ ['.'], qtype, 0,
        if delete then ∅ else {rdata}⟩
    match zone, subname with
    | some zone, none =>
      let zone := absoluteName zone
      some (named ((sha1 zone).val ++ ".zones".toList) (rdata.getD zone))
    | none, some subname => rdata.map (named subname)
    | _, _ => none

/-- `update_catalog`, with what the server makes of the request. -/
def updateCatalog (zone : Text) (delete : Bool) (catalog : Zone) : Option Zone :=
  (constructCatalogRrset sha1 (some zone) delete none ptr none).map fun rrset =>
    patch catalog [rrset]

/-- The catalog zone that `align-catalog-zone` creates, for the zones in the order that the set of
them is walked through. -/
def alignCatalogZone (zones : List ZoneName) : Option Zone := do
  let apex ← constructCatalogRrset sha1 none false (some []) ns (some "invalid.".toList)
  let version ← constructCatalogRrset sha1 none false (some "version".toList) txt
    (some "\"2\"".toList)
  let members ← zones.mapM fun zone =>
    constructCatalogRrset sha1 (some zone.val) false none ptr none
  pure (patch ∅ (apex :: version :: members))

/-- The zones on nslord, and the catalog zone. -/
structure State where
  zones : Finset ZoneName
  catalog : Zone

/-- A domain is created or deleted, under some spelling of its name. -/
inductive Event where
  | create (name : Text)
  | delete (name : Text)

def Event.zone : Event → ZoneName
  | .create name => .of name
  | .delete name => .of name

def Event.zones (zones : Finset ZoneName) : Event → Finset ZoneName
  | .create name => insert (.of name) zones
  | .delete name => zones.erase (.of name)

/-- `CreateDomain.pdns_do` and `DeleteDomain.pdns_do`, on what the catalog is about. -/
def step (s : State) (event : Event) : Option State :=
  let updated := match event with
    | .create name => updateCatalog sha1 name false s.catalog
    | .delete name => updateCatalog sha1 name true s.catalog
  updated.map fun catalog => ⟨event.zones s.zones, catalog⟩

/-- The owner name of a member's PTR RRset. -/
def memberName (zone : ZoneName) : Text := (sha1 zone.val).val ++ ".zones.catalog.internal.".toList

def memberRRset (zone : ZoneName) : RRsetData := ⟨memberName sha1 zone, ptr, 0, {zone.val}⟩

def apexRRset : RRsetData := ⟨"catalog.internal.".toList, ns, 0, {"invalid.".toList}⟩

def versionRRset : RRsetData :=
  ⟨"version.catalog.internal.".toList, txt, 0, {"\"2\"".toList}⟩

section Names

variable {sha1}

private theorem digest_head (digest : Digest) : ∃ c rest, digest.val = c :: rest ∧ c ≠ '.' := by
  obtain ⟨text, length, hex⟩ := digest
  cases text with
  | nil => cases length
  | cons c rest =>
    refine ⟨c, rest, rfl, ?_⟩
    rintro rfl
    simp at hex

private theorem stripped_member (zone : ZoneName) :
    stripChar '.' (((sha1 zone.val).val ++ ".zones".toList) ++ '.' :: catalogZone) ++ ['.'] =
      memberName sha1 zone := by
  obtain ⟨c, rest, shape, undotted⟩ := digest_head (sha1 zone.val)
  have front : (c == '.') = false := by simpa using undotted
  have back : ¬ ['.'] <:+ (c :: rest) ++ ".zones.catalog.internal".toList := by
    intro ends
    obtain ⟨start, whole⟩ := ends
    have last := congrArg List.getLast? whole
    rw [List.getLast?_append, List.getLast?_append] at last
    exact absurd (show some '.' = some 'l' from last) (by decide)
  have joined : ((sha1 zone.val).val ++ ".zones".toList) ++ '.' :: catalogZone =
      (c :: rest) ++ ".zones.catalog.internal".toList := by
    rw [shape, List.append_assoc]
    rfl
  have kept : ((c :: rest) ++ ".zones.catalog.internal".toList).dropWhile (· == '.') =
      (c :: rest) ++ ".zones.catalog.internal".toList := by
    rw [List.cons_append, List.dropWhile_cons, front]
    rfl
  rw [joined, stripChar, kept, rstripChar_of_not_endsWith back, memberName, shape,
    List.append_assoc]
  rfl

private theorem construct_member (name : Text) :
    constructCatalogRrset sha1 (some name) false none ptr none =
      some (memberRRset sha1 (.of name)) := by
  simp only [constructCatalogRrset, Bool.false_and, Bool.false_eq_true, if_false]
  exact congrArg (fun owner => some (⟨owner, ptr, 0, _⟩ : RRsetData))
    (stripped_member (ZoneName.of name))

private theorem construct_gone (name : Text) :
    constructCatalogRrset sha1 (some name) true none ptr none =
      some ⟨memberName sha1 (.of name), ptr, 0, ∅⟩ := by
  simp only [constructCatalogRrset, Option.any_none, Bool.and_false, Bool.false_eq_true, if_false,
    if_true]
  exact congrArg (fun owner => some (⟨owner, ptr, 0, _⟩ : RRsetData))
    (stripped_member (ZoneName.of name))

/-- The owner name is the one that the change tracker's requests use. -/
theorem catalogOwner_eq {settings : Pdns.Settings} (hash : ∀ n, settings.sha1Hex n = (sha1 n).val)
    (same : settings.catalogZone = catalogZone) (name : Text) :
    Pdns.catalogOwner settings name = memberName sha1 (.of name) := by
  rw [← stripped_member, Pdns.catalogOwner, hash, same, List.append_assoc, List.append_assoc]
  rfl

private theorem ZoneName.of_val (zone : ZoneName) : ZoneName.of zone.val = zone :=
  Subtype.ext zone.property

private theorem memberName_inj {one other : ZoneName}
    (same : memberName sha1 one = memberName sha1 other) :
    sha1 one.val = sha1 other.val :=
  Subtype.ext (List.append_cancel_right same)

end Names

section Contents

/-- The catalog's RRsets for a set of zones: NS, version, and a PTR RRset for each member. -/
structure Contents (zones : Finset ZoneName) (catalog : Zone) : Prop where
  apex : catalog.lookup ("catalog.internal.".toList, ns) = some ⟨0, {"invalid.".toList}⟩
  version : catalog.lookup ("version.catalog.internal.".toList, txt) = some ⟨0, {"\"2\"".toList}⟩
  member : ∀ zone ∈ zones, catalog.lookup (memberName sha1 zone, ptr) = some ⟨0, {zone.val}⟩
  other : ∀ owner type rrset, catalog.lookup (owner, type) = some rrset →
    (owner, type) = ("catalog.internal.".toList, ns) ∨
      (owner, type) = ("version.catalog.internal.".toList, txt) ∨
      ∃ zone ∈ zones, (owner, type) = (memberName sha1 zone, ptr)

/-- The zones have distinct digests. -/
def Distinct (zones : Set ZoneName) : Prop := zones.InjOn fun zone => sha1 zone.val

variable {sha1}

/-- The contents determine the catalog. -/
theorem Contents.unique {zones : Finset ZoneName} {one other : Zone}
    (first : Contents sha1 zones one) (second : Contents sha1 zones other) : one = other := by
  have covers : ∀ {one other : Zone}, Contents sha1 zones one → Contents sha1 zones other →
      ∀ key rrset, one.lookup key = some rrset → other.lookup key = some rrset := by
    intro one other first second key rrset found
    rcases first.other key.1 key.2 rrset found with apex | version | ⟨zone, member, here⟩
    · rw [show key = _ from apex, first.apex] at found
      rw [show key = _ from apex, second.apex, found]
    · rw [show key = _ from version, first.version] at found
      rw [show key = _ from version, second.version, found]
    · rw [show key = _ from here, first.member zone member] at found
      rw [show key = _ from here, second.member zone member, found]
  apply Finmap.ext_lookup
  intro key
  apply Option.ext
  intro rrset
  exact ⟨covers first second key rrset, covers second first key rrset⟩

/-- Writing a catalog from scratch gives these contents. -/
theorem contents_of_align {zones : List ZoneName} (nodup : zones.Nodup)
    (distinct : Distinct sha1 {zone | zone ∈ zones}) :
    ∃ catalog, alignCatalogZone sha1 zones = some catalog ∧
      Contents sha1 zones.toFinset catalog := by
  have members : (zones.mapM fun zone =>
      constructCatalogRrset sha1 (some zone.val) false none ptr none) =
        some (zones.map (memberRRset sha1)) := by
    rw [Library.Runs.mapM_eq_some_iff, List.forall₂_map_right_iff, List.forall₂_same]
    intro zone _
    rw [construct_member, ZoneName.of_val]
  refine ⟨_, by rw [alignCatalogZone, members]; rfl, ?_⟩
  have keys : ((apexRRset :: versionRRset :: zones.map (memberRRset sha1)).map
      fun e => (e.name, e.type)).Nodup := by
    have typed : ∀ key ∈ (zones.map (memberRRset sha1)).map fun e => (e.name, e.type),
        key.2 = ptr := by
      simp [memberRRset]
    have owners : ((zones.map (memberRRset sha1)).map fun e => (e.name, e.type)).Nodup := by
      rw [List.map_map]
      refine List.Nodup.map_on ?_ nodup
      intro one here other there same
      exact distinct here there (memberName_inj (Prod.mk.inj same).1)
    simp only [List.map_cons, List.nodup_cons, List.mem_cons, not_or]
    refine ⟨⟨by decide, fun member => ?_⟩, fun member => ?_, owners⟩
    · exact absurd (typed _ member) (by decide)
    · exact absurd (typed _ member) (by decide)
  constructor
  · exact (Pdns.patch_of_mem (e := apexRRset) _ ∅ keys (by simp)).trans (if_neg (by decide))
  · exact (Pdns.patch_of_mem (e := versionRRset) _ ∅ keys (by simp)).trans (if_neg (by decide))
  · intro zone member
    have entry : memberRRset sha1 zone ∈
        apexRRset :: versionRRset :: zones.map (memberRRset sha1) := by
      simp only [List.mem_cons, List.mem_map]
      exact .inr (.inr ⟨zone, List.mem_toFinset.mp member, rfl⟩)
    exact (Pdns.patch_of_mem _ ∅ keys entry).trans (if_neg (Finset.singleton_ne_empty _))
  · intro owner type rrset found
    by_contra none_of
    rw [not_or, not_or] at none_of
    obtain ⟨notApex, notVersion, notMember⟩ := none_of
    rw [@Pdns.patch_of_notMem (owner, type)] at found
    · rw [Finmap.lookup_empty] at found
      cases found
    · intro e entry same
      rcases List.mem_cons.mp entry with rfl | entry
      · exact notApex same.symm
      · rcases List.mem_cons.mp entry with rfl | entry
        · exact notVersion same.symm
        · obtain ⟨zone, member, rfl⟩ := List.mem_map.mp entry
          exact notMember ⟨zone, List.mem_toFinset.mpr member, same.symm⟩

private theorem contents_of_create {zones : Finset ZoneName} {catalog : Zone} {zone : ZoneName}
    (contents : Contents sha1 zones catalog)
    (distinct : Distinct sha1 (insert zone (zones : Set ZoneName))) :
    Contents sha1 (insert zone zones) (patch catalog [memberRRset sha1 zone]) := by
  have shape : patch catalog [memberRRset sha1 zone] =
      place catalog (memberName sha1 zone, ptr) ⟨0, {zone.val}⟩ := rfl
  rw [shape]
  refine ⟨?_, ?_, ?_, ?_⟩
  · rw [Pdns.place_of_ne (fun same => absurd (Prod.mk.inj same).2 (by decide))]
    exact contents.apex
  · rw [Pdns.place_of_ne (fun same => absurd (Prod.mk.inj same).2 (by decide))]
    exact contents.version
  · intro other member
    by_cases same : other = zone
    · rw [same, Pdns.place_self, if_neg (Finset.singleton_ne_empty _)]
    · have there := (Finset.mem_insert.mp member).resolve_left same
      rw [Pdns.place_of_ne, contents.member other there]
      intro owners
      exact same (distinct (.inr there) (.inl rfl) (memberName_inj (Prod.mk.inj owners).1))
  · intro owner type rrset found
    by_cases here : (owner, type) = (memberName sha1 zone, ptr)
    · exact .inr (.inr ⟨zone, Finset.mem_insert_self .., here⟩)
    · rw [Pdns.place_of_ne here] at found
      rcases contents.other owner type rrset found with apex | version | ⟨other, there, key⟩
      · exact .inl apex
      · exact .inr (.inl version)
      · exact .inr (.inr ⟨other, Finset.mem_insert_of_mem there, key⟩)

private theorem contents_of_delete {zones : Finset ZoneName} {catalog : Zone} {zone : ZoneName}
    (contents : Contents sha1 zones catalog)
    (distinct : Distinct sha1 (insert zone (zones : Set ZoneName))) :
    Contents sha1 (zones.erase zone) (patch catalog [⟨memberName sha1 zone, ptr, 0, ∅⟩]) := by
  have shape : patch catalog [⟨memberName sha1 zone, ptr, 0, ∅⟩] =
      place catalog (memberName sha1 zone, ptr) ⟨0, ∅⟩ := rfl
  rw [shape]
  refine ⟨?_, ?_, ?_, ?_⟩
  · rw [Pdns.place_of_ne (fun same => absurd (Prod.mk.inj same).2 (by decide))]
    exact contents.apex
  · rw [Pdns.place_of_ne (fun same => absurd (Prod.mk.inj same).2 (by decide))]
    exact contents.version
  · intro other member
    obtain ⟨different, there⟩ := Finset.mem_erase.mp member
    rw [Pdns.place_of_ne, contents.member other there]
    intro owners
    exact different (distinct (.inr there) (.inl rfl) (memberName_inj (Prod.mk.inj owners).1))
  · intro owner type rrset found
    by_cases here : (owner, type) = (memberName sha1 zone, ptr)
    · rw [here, Pdns.place_self] at found
      cases found
    · rw [Pdns.place_of_ne here] at found
      rcases contents.other owner type rrset found with apex | version | ⟨other, there, key⟩
      · exact .inl apex
      · exact .inr (.inl version)
      · refine .inr (.inr ⟨other, Finset.mem_erase.mpr ⟨?_, there⟩, key⟩)
        rintro rfl
        exact here key

/-- Every creation and deletion keeps the contents. -/
theorem contents_step {s : State} (contents : Contents sha1 s.zones s.catalog) (event : Event)
    (distinct : Distinct sha1 (insert event.zone (s.zones : Set ZoneName))) :
    ∃ s', step sha1 s event = some s' ∧ s'.zones = event.zones s.zones ∧
      Contents sha1 s'.zones s'.catalog := by
  cases event with
  | create name =>
    refine ⟨⟨_, patch s.catalog [memberRRset sha1 (.of name)]⟩, ?_, rfl,
      contents_of_create contents distinct⟩
    rw [step, updateCatalog, construct_member]
    rfl
  | delete name =>
    refine ⟨⟨_, patch s.catalog [⟨memberName sha1 (.of name), ptr, 0, ∅⟩]⟩, ?_, rfl,
      contents_of_delete contents distinct⟩
    rw [step, updateCatalog, construct_gone]
    rfl

private theorem mem_event_zones {zones : Finset ZoneName} {event : Event} {zone : ZoneName}
    (member : zone ∈ event.zones zones) : zone = event.zone ∨ zone ∈ zones := by
  cases event with
  | create name => exact Finset.mem_insert.mp member
  | delete name => exact .inr (Finset.mem_of_mem_erase member)

private theorem mem_zones_run : ∀ {events : List Event} {zones : Finset ZoneName} {zone : ZoneName},
    zone ∈ events.foldl Event.zones zones →
      zone ∈ zones ∨ ∃ event ∈ events, event.zone = zone := by
  intro events
  induction events with
  | nil =>
    intro zones zone member
    exact .inl member
  | cons event events ih =>
    intro zones zone member
    rcases ih member with there | ⟨later, found, here⟩
    · rcases mem_event_zones there with rfl | there
      · exact .inr ⟨event, List.mem_cons_self .., rfl⟩
      · exact .inl there
    · exact .inr ⟨later, List.mem_cons_of_mem _ found, here⟩

/-- A run keeps the contents. -/
theorem contents_run : ∀ {events : List Event} {s : State}, Contents sha1 s.zones s.catalog →
    Distinct sha1 {zone | zone ∈ s.zones ∨ ∃ event ∈ events, event.zone = zone} →
    ∃ s', events.foldlM (step sha1) s = some s' ∧
      s'.zones = events.foldl Event.zones s.zones ∧ Contents sha1 s'.zones s'.catalog := by
  intro events
  induction events with
  | nil =>
    intro s contents _
    exact ⟨s, rfl, rfl, contents⟩
  | cons event events ih =>
    intro s contents distinct
    obtain ⟨next, taken, zones, kept⟩ := contents_step contents event (distinct.mono (by
      rintro zone (rfl | there)
      · exact .inr ⟨event, List.mem_cons_self .., rfl⟩
      · exact .inl there))
    obtain ⟨last, run, final, result⟩ := ih kept (distinct.mono (by
      rintro zone (there | ⟨later, member, same⟩)
      · rcases mem_event_zones (zones ▸ there) with rfl | there
        · exact .inr ⟨event, List.mem_cons_self .., rfl⟩
        · exact .inl there
      · exact .inr ⟨later, List.mem_cons_of_mem _ member, same⟩))
    refine ⟨last, ?_, ?_, result⟩
    · rw [List.foldlM_cons, taken]
      exact run
    · rw [final, zones]
      rfl

/-- Kept up by creations and deletions, the catalog is the one that would be written from scratch,
in whatever order, for the zones that there are then. -/
theorem maintained_eq_aligned {zones : List ZoneName} {events : List Event} (nodup : zones.Nodup)
    (distinct : Distinct sha1 {zone | zone ∈ zones ∨ ∃ event ∈ events, event.zone = zone}) :
    ∃ catalog s, alignCatalogZone sha1 zones = some catalog ∧
      events.foldlM (step sha1) ⟨zones.toFinset, catalog⟩ = some s ∧
      s.zones = events.foldl Event.zones zones.toFinset ∧ Contents sha1 s.zones s.catalog ∧
      ∀ listing : List ZoneName, listing.Nodup → listing.toFinset = s.zones →
        alignCatalogZone sha1 listing = some s.catalog := by
  obtain ⟨catalog, start, contents⟩ := contents_of_align nodup
    (distinct.mono fun _ member => .inl member)
  have named : Distinct sha1
      {zone | zone ∈ zones.toFinset ∨ ∃ event ∈ events, event.zone = zone} := by
    simpa only [List.mem_toFinset] using distinct
  obtain ⟨s, run, final, kept⟩ := contents_run (s := ⟨zones.toFinset, catalog⟩) contents named
  refine ⟨catalog, s, start, run, final, kept, ?_⟩
  intro listing unrepeated same
  obtain ⟨scratch, written, aligned⟩ := contents_of_align unrepeated (distinct.mono (by
    intro zone member
    have final : zone ∈ events.foldl Event.zones zones.toFinset := by
      rw [← final, ← same]
      exact List.mem_toFinset.mpr member
    rcases mem_zones_run final with there | later
    · exact .inl (List.mem_toFinset.mp there)
    · exact .inr later))
  have there := same ▸ aligned
  rw [written, Contents.unique there kept]

end Contents

section Examples

/-- The digests of two zone names. -/
def sampleSha1 (name : Text) : Digest :=
  if name = "example.com.".toList then
    ⟨"22b77bea9d7a8cf2147bb0616aaa388b0d152013".toList, by decide⟩
  else ⟨"f5a5442784f5c7ef4a88f3ed1dad8b1402d49ab6".toList, by decide⟩

def exampleCom : ZoneName := .of "example.com".toList

def aDedynIo : ZoneName := .of "a.dedyn.io.".toList

/-- One zone is created; the other one is deleted and created again. -/
def sampleEvents : List Event :=
  [.create "a.dedyn.io".toList, .delete "example.com.".toList, .create "example.com".toList]

private theorem sampleSha1_distinct : Distinct sampleSha1
    {zone | zone ∈ [exampleCom] ∨ ∃ event ∈ sampleEvents, event.zone = zone} := by
  have named : ∀ zone, (zone ∈ [exampleCom] ∨ ∃ event ∈ sampleEvents, event.zone = zone) →
      zone = exampleCom ∨ zone = aDedynIo := by
    simp only [sampleEvents, List.mem_cons, List.not_mem_nil, or_false]
    rintro zone (rfl | ⟨event, rfl | rfl | rfl, rfl⟩)
    · exact .inl rfl
    · exact .inr rfl
    · exact .inl rfl
    · exact .inl rfl
  intro one here other there same
  rcases named one here with rfl | rfl <;> rcases named other there with rfl | rfl
  · rfl
  · exact absurd (congrArg Subtype.val same) (by decide)
  · exact absurd (congrArg Subtype.val same) (by decide)
  · rfl

theorem maintained_eq_aligned_sample :
    ∃ catalog s, alignCatalogZone sampleSha1 [exampleCom] = some catalog ∧
      sampleEvents.foldlM (step sampleSha1) ⟨[exampleCom].toFinset, catalog⟩ = some s ∧
      s.zones = sampleEvents.foldl Event.zones [exampleCom].toFinset ∧
      Contents sampleSha1 s.zones s.catalog ∧
      ∀ listing : List ZoneName, listing.Nodup → listing.toFinset = s.zones →
        alignCatalogZone sampleSha1 listing = some s.catalog :=
  maintained_eq_aligned (List.nodup_singleton _) sampleSha1_distinct

end Examples

end DesecStack.Changes.Catalog
