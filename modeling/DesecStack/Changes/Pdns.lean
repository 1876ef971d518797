/- module: DesecStack/Changes/Pdns
   source: api/desecapi/pdns.py
   digest: The requests sent to the two PowerDNS servers, and what the servers make of them. -/

import DesecStack.Changes.Models

set_option autoImplicit false
set_option relaxedAutoImplicit false

namespace DesecStack.Changes.Pdns

open Library.PyText
open Names.Validators (beforeFinalNewline isLowerAscii isUpperAscii isDigitAscii
  validateDomainName not_endsWith_dot mem_domainName)
open Models (RRset Item)

/-- The settings read here, and the hash function of the catalog. -/
structure Settings where
  defaultNs : List Text
  defaultNsTtl : Nat
  catalogZone : Text
  pchApi : Bool
  sha1Hex : Text → Text

/-- RRsets by owner name and type. -/
abbrev Zone := Dict (Text × Text) RRset

/-- An entry of a `PATCH` request with changetype `REPLACE`. -/
structure RRsetData where
  name : Text
  type : Text
  ttl : Nat
  records : Finset Text

/-- The zones of both servers by id, and the members of the catalog zone by owner name. -/
structure Servers where
  lord : Dict Text Zone
  master : Dict Text Zone
  catalog : Dict Text Text

inductive Request where
  | createZoneLord (name : Text)
  | createZoneMaster (name : Text)
  | deleteZoneLord (id : Text)
  | deleteZoneMaster (id : Text)
  | updateZone (id : Text) (rrsets : List RRsetData)
  | updateCatalog (id owner : Text) (member : Option Text)
  | axfrToMaster (id : Text)
  | pchCreateDomain (name : Text)
  | pchDeleteDomain (name : Text)

def idCode (c : Char) : Text :=
  if c = '/' then ['=', '2', 'F'] else if c = '_' then ['=', '5', 'F'] else [c]

def translate (name : Text) : Text := name.flatMap idCode

/-- `^[a-zA-Z0-9_.-]+$` -/
def idPattern (name : Text) : Bool :=
  (beforeFinalNewline name).any fun s => s != [] && s.all fun c =>
    isLowerAscii c || isUpperAscii c || isDigitAscii c || c == '_' || c == '.' || c == '-'

/-- `pdns_id`; `none` is `SuspiciousOperation`. -/
def pdnsId (name : Text) : Option Text :=
  if idPattern name then some (rstripChar '.' (translate name) ++ ['.']) else none

/-- The name sent for a new zone. -/
def absoluteName (name : Text) : Text := rstripChar '.' name ++ ['.']

/-- The id a server gives to a new zone. -/
def zoneNameToId (name : Text) : Text := translate name

def place (zone : Zone) (key : Text × Text) (rrset : RRset) : Zone :=
  if rrset.records = ∅ then zone.erase key else zone.insert key rrset

def patch (zone : Zone) (rrsets : List RRsetData) : Zone :=
  rrsets.foldl (fun zone e => place zone (e.name, e.type) ⟨e.ttl, e.records⟩) zone

def soaContent : Text := "get.desec.io. get.desec.io. 1 86400 3600 2419200 3600".toList

def soa : Text := "SOA".toList

def ns : Text := "NS".toList

/-- What `create_zone_lord` asks for: a SOA record and the default name servers. -/
def newZone (settings : Settings) (name : Text) : Zone :=
  place (place ∅ (absoluteName name, soa) ⟨300, {soaContent}⟩) (absoluteName name, ns)
    ⟨settings.defaultNsTtl, settings.defaultNs.toFinset⟩

/-- The servers at work on an accepted request. `none` is an error response: creating what
exists, or changing or deleting what does not. -/
def handle (settings : Settings) (servers : Servers) : Request → Option Servers
  | .createZoneLord name =>
      let id := zoneNameToId (absoluteName name)
      if servers.lord.lookup id = none then
        some { servers with lord := servers.lord.insert id (newZone settings name) }
      else none
  | .createZoneMaster name =>
      let id := zoneNameToId (absoluteName name)
      if servers.master.lookup id = none then
        some { servers with master := servers.master.insert id ∅ }
      else none
  | .deleteZoneLord id =>
      if servers.lord.lookup id = none then none
      else some { servers with lord := servers.lord.erase id }
  | .deleteZoneMaster id =>
      if servers.master.lookup id = none then none
      else some { servers with master := servers.master.erase id }
  | .updateZone id rrsets =>
      (servers.lord.lookup id).map fun zone =>
        { servers with lord := servers.lord.insert id (patch zone rrsets) }
  | .updateCatalog _ owner none => some { servers with catalog := servers.catalog.erase owner }
  | .updateCatalog _ owner (some member) =>
      some { servers with catalog := servers.catalog.insert owner member }
  | .axfrToMaster id =>
      if servers.master.lookup id = none then none
      else (servers.lord.lookup id).map fun zone =>
        { servers with master := servers.master.insert id zone }
  | .pchCreateDomain _ | .pchDeleteDomain _ => some servers

/-- A server may refuse any request for reasons of its own. -/
abbrev Accepts := Servers → Request → Bool

def send (settings : Settings) (accepts : Accepts) (request : Request) (servers : Servers) :
    Option Servers :=
  if accepts servers request then handle settings servers request else none

/-- The owner name of a domain's entry in the catalog, as in `construct_catalog_rrset`. -/
def catalogOwner (settings : Settings) (name : Text) : Text :=
  let unique := settings.sha1Hex (absoluteName name)
  stripChar '.' (unique ++ ".zones.".toList ++ settings.catalogZone) ++ ['.']

def updateCatalog (settings : Settings) (accepts : Accepts) (name : Text) (delete : Bool)
    (servers : Servers) : Option Servers := do
  let id ← pdnsId settings.catalogZone
  let member := if delete then none else some (absoluteName name)
  send settings accepts (.updateCatalog id (catalogOwner settings name) member) servers

/-- `RRset.construct_name` -/
def constructName (subname name : Text) : Text :=
  join ['.'] ([subname, name].filter (· ≠ [])) ++ ['.']

/-- The place of an RRset in the zone of its domain. -/
def zoneKey (name : Text) (item : Item) : Text × Text := (constructName item.2 name, item.1)

theorem place_self (zone : Zone) (key : Text × Text) (rrset : RRset) :
    (place zone key rrset).lookup key = if rrset.records = ∅ then none else some rrset := by
  by_cases empty : rrset.records = ∅ <;> simp [place, empty]

theorem place_of_ne {zone : Zone} {key other : Text × Text} (differs : other ≠ key)
    (rrset : RRset) : (place zone key rrset).lookup other = zone.lookup other := by
  by_cases empty : rrset.records = ∅ <;>
    simp [place, empty, Finmap.lookup_insert_of_ne, Finmap.lookup_erase_ne, differs]

theorem patch_of_notMem {key : Text × Text} :
    ∀ (rrsets : List RRsetData) (zone : Zone), (∀ e ∈ rrsets, (e.name, e.type) ≠ key) →
      (patch zone rrsets).lookup key = zone.lookup key := by
  intro rrsets
  induction rrsets with
  | nil => intro zone _; rfl
  | cons e rest ih =>
    intro zone others
    have head := others e (List.mem_cons_self ..)
    have step := ih (place zone (e.name, e.type) ⟨e.ttl, e.records⟩)
      fun f member => others f (List.mem_cons_of_mem _ member)
    rw [place_of_ne (Ne.symm head)] at step
    exact step

theorem patch_of_mem {e : RRsetData} :
    ∀ (rrsets : List RRsetData) (zone : Zone),
      (rrsets.map fun f => (f.name, f.type)).Nodup → e ∈ rrsets →
      (patch zone rrsets).lookup (e.name, e.type)
        = if e.records = ∅ then none else some ⟨e.ttl, e.records⟩ := by
  intro rrsets
  induction rrsets with
  | nil => intro _ _ member; exact absurd member (List.not_mem_nil)
  | cons f rest ih =>
    intro zone nodup member
    obtain ⟨absent, nodup⟩ := List.nodup_cons.mp nodup
    rcases List.mem_cons.mp member with rfl | later
    · have others : ∀ g ∈ rest, (g.name, g.type) ≠ (e.name, e.type) := fun g hg same =>
        absent (List.mem_map.mpr ⟨g, hg, same⟩)
      have step := patch_of_notMem rest (place zone (e.name, e.type) ⟨e.ttl, e.records⟩) others
      rw [place_self] at step
      exact step
    · exact ih _ nodup later

private theorem constructName_eq (subname name : Text) (nonempty : name ≠ []) :
    constructName subname name
      = (if subname = [] then [] else subname ++ ['.']) ++ name ++ ['.'] := by
  by_cases empty : subname = []
  · simp [constructName, join, empty, nonempty]
  · simp [constructName, join, empty, nonempty, List.intercalate_cons_cons]

private theorem constructName_injective {name : Text} (nonempty : name ≠ []) {a b : Text}
    (same : constructName a name = constructName b name) : a = b := by
  rw [constructName_eq a name nonempty, constructName_eq b name nonempty] at same
  have heads := List.append_cancel_right (List.append_cancel_right same)
  split_ifs at heads with ha hb hb
  · rw [ha, hb]
  · exact absurd heads (by simp)
  · exact absurd heads (by simp)
  · exact List.append_cancel_right heads

theorem zoneKey_injective {name : Text} (nonempty : name ≠ []) {a b : Item}
    (same : zoneKey name a = zoneKey name b) : a = b := by
  obtain ⟨names, types⟩ := Prod.mk.inj same
  exact Prod.ext types (constructName_injective nonempty names)

/-- The id of the zone of a domain. -/
def zoneId (name : Text) : Text := zoneNameToId (absoluteName name)

private theorem translate_append (a b : Text) :
    translate (a ++ b) = translate a ++ translate b := by
  simp [translate]

private theorem translate_dot : translate ['.'] = ['.'] := by decide

private theorem endsWith_dot_of_translate {name : Text} (ends : ['.'] <:+ translate name) :
    ['.'] <:+ name := by
  rcases List.eq_nil_or_concat name with rfl | ⟨front, c, rfl⟩
  · exact absurd ends (by decide)
  · rw [List.concat_eq_append] at ends ⊢
    have last : (translate (front ++ [c])).getLast? = some '.' := by
      obtain ⟨start, whole⟩ := ends
      rw [← whole]
      simp
    have shape : (translate (front ++ [c])).getLast? = (idCode c).getLast? := by
      have nonempty : idCode c ≠ [] := by
        unfold idCode
        split_ifs <;> simp
      rw [translate_append]
      simp [translate, List.getLast?_append, List.getLast?_eq_some_getLast nonempty]
    rw [shape] at last
    have dot : c = '.' := by
      unfold idCode at last
      split_ifs at last
      · exact absurd last (by decide)
      · exact absurd last (by decide)
      · simpa using last
    exact ⟨front, by rw [dot]⟩

variable {unicode : Unicode}

theorem absoluteName_eq {name : Text} (valid : validateDomainName unicode name = true) :
    absoluteName name = name ++ ['.'] := by
  rw [absoluteName, rstripChar_of_not_endsWith (not_endsWith_dot unicode valid)]

/-- A request path leads to the zone that was created under the same domain name. -/
theorem pdnsId_eq {name id : Text} (valid : validateDomainName unicode name = true)
    (found : pdnsId name = some id) : id = zoneId name := by
  have undotted : ¬ ['.'] <:+ translate name :=
    fun ends => not_endsWith_dot unicode valid (endsWith_dot_of_translate ends)
  simp only [pdnsId, rstripChar_of_not_endsWith undotted, Option.ite_none_right_eq_some,
    Option.some.injEq] at found
  rw [← found.2, zoneId, absoluteName_eq valid, zoneNameToId, translate_append, translate_dot]

private theorem idCode_inj {c d : Char} {a b : Text} (hc : c ≠ '=') (hd : d ≠ '=')
    (same : idCode c ++ a = idCode d ++ b) : c = d ∧ a = b := by
  have hc' := Ne.symm hc
  have hd' := Ne.symm hd
  unfold idCode at same
  split_ifs at same <;> simp_all

private theorem translate_injective :
    ∀ {a b : Text}, '=' ∉ a → '=' ∉ b → translate a = translate b → a = b := by
  have nonempty (c : Char) : idCode c ≠ [] := by
    unfold idCode
    split_ifs <;> simp
  intro a
  induction a with
  | nil =>
    intro b _ _ same
    cases b with
    | nil => rfl
    | cons d b => simp [translate, nonempty] at same
  | cons c a ih =>
    intro b ha hb same
    cases b with
    | nil => simp [translate, nonempty] at same
    | cons d b =>
      simp only [List.mem_cons, not_or] at ha hb
      simp only [translate, List.flatMap_cons] at same
      obtain ⟨rfl, rest⟩ := idCode_inj (Ne.symm ha.1) (Ne.symm hb.1) same
      rw [ih ha.2 hb.2 rest]

/-- Different domains have different zones. -/
theorem zoneId_injective {a b : Text} (ha : validateDomainName unicode a = true)
    (hb : validateDomainName unicode b = true) (same : zoneId a = zoneId b) : a = b := by
  have plain {name : Text} (valid : validateDomainName unicode name = true) : '=' ∉ name := by
    intro member
    have := mem_domainName unicode valid member
    revert this
    decide
  simp only [zoneId, zoneNameToId, absoluteName_eq ha, absoluteName_eq hb, translate_append,
    List.append_cancel_right_eq] at same
  exact translate_injective (plain ha) (plain hb) same

end DesecStack.Changes.Pdns
