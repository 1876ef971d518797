/- module: DesecStack/Tenants/Secondaries
   layer: main results
   digest: As long as zones are transferred, nsmaster hands the contents of the database to the
     secondary servers. -/

import DesecStack.Tenants.Mirrored

set_option autoImplicit false
set_option relaxedAutoImplicit false

namespace DesecStack.Tenants.Secondaries

open Library.PyText (Text Unicode)
open Library.Runs (mapM_eq_some_iff)
open Library.SetOrder (mem_visit_iff)
open Names.Validators (validateDomainName)
open Changes.Models
open Changes.History
open Changes.Tracker
open Changes.Pdns
open Changes.Compute
open Changes.Execution
open Changes.Mirror
open Records.Save (Session)
open Records.Traces (Telling)
open Views.Writes (Site Refusal)
open Views.Bulk (Faults System Answer exit runChanges transfers)
open Views.Atomic (stays_of_exit_of_telling told_of_traced)
open Published
open Mirrored

/-- Both servers have the same zones, but for those that are waiting for a transfer. -/
structure Lagging (unicode : Unicode) (waiting : Finset Text) (servers : Servers) : Prop where
  valid (name : Text) (member : name ∈ waiting) : validateDomainName unicode name = true
  same (id : Text) (other : ∀ name ∈ waiting, id ≠ zoneId name) :
    servers.master.lookup id = servers.lord.lookup id

section Changes

variable {unicode : Unicode} {settings : Settings} {accepts : Accepts} {orders : Orders}
  {servers servers' : Servers} {waiting : Finset Text}

private theorem zones_of_updateCatalog {name : Text} {delete : Bool}
    (done : updateCatalog settings accepts name delete servers = some servers') :
    servers'.lord = servers.lord ∧ servers'.master = servers.master := by
  simp only [updateCatalog, Option.bind_eq_bind, Option.bind_eq_some_iff] at done
  obtain ⟨id, -, sent⟩ := done
  have handled := handle_of_send sent
  cases delete <;>
    simp only [handle, if_true, Bool.false_eq_true, if_false, Option.some.injEq] at handled <;>
    exact handled ▸ ⟨rfl, rfl⟩

private theorem pchDo_eq {change : PDNSChange}
    (done : pchDo settings accepts servers change = some servers') :
    servers' = servers := by
  cases change with
  | createUpdateDeleteRRSets name p => exact (Option.some.inj done).symm
  | createDomain name => exact (Option.some.inj (handle_of_send done)).symm
  | deleteDomain name => exact (Option.some.inj (handle_of_send done)).symm

/-- The names that wait for a transfer after a change. -/
def after (change : PDNSChange) (waiting : Finset Text) : Finset Text :=
  if change.axfrRequired then insert change.domainName waiting else waiting

private theorem lagging_of_pdnsDo {db : Database} {change : PDNSChange}
    (valid : change.axfrRequired = true → validateDomainName unicode change.domainName = true)
    (lagging : Lagging unicode waiting servers)
    (done : pdnsDo settings accepts orders db servers change = some servers') :
    Lagging unicode (after change waiting) servers' := by
  cases change with
  | createDomain name =>
    simp only [pdnsDo, Option.bind_eq_bind, Option.bind_eq_some_iff] at done
    obtain ⟨lord, lordSent, master, masterSent, catalogSent⟩ := done
    have first := handle_of_send lordSent
    have second := handle_of_send masterSent
    simp only [handle, Option.ite_none_right_eq_some, Option.some.injEq] at first second
    obtain ⟨-, rfl⟩ := first
    obtain ⟨-, rfl⟩ := second
    obtain ⟨sameLord, sameMaster⟩ := zones_of_updateCatalog catalogSent
    refine ⟨fun other member => ?_, fun id other => ?_⟩
    · rcases Finset.mem_insert.mp member with rfl | old
      · exact valid rfl
      · exact lagging.valid other old
    · have apart : id ≠ zoneNameToId (absoluteName name) := other name (Finset.mem_insert_self ..)
      rw [sameLord, sameMaster]
      dsimp only
      rw [Finmap.lookup_insert_of_ne _ apart, Finmap.lookup_insert_of_ne _ apart]
      exact lagging.same id fun n old => other n (Finset.mem_insert_of_mem old)
  | deleteDomain name =>
    simp only [pdnsDo, Option.bind_eq_bind, Option.bind_eq_some_iff] at done
    obtain ⟨path, -, lord, lordSent, master, masterSent, catalogSent⟩ := done
    have first := handle_of_send lordSent
    have second := handle_of_send masterSent
    simp only [handle, Option.ite_none_left_eq_some, Option.some.injEq] at first second
    obtain ⟨-, rfl⟩ := first
    obtain ⟨-, rfl⟩ := second
    obtain ⟨sameLord, sameMaster⟩ := zones_of_updateCatalog catalogSent
    refine ⟨lagging.valid, fun id other => ?_⟩
    rw [sameLord, sameMaster]
    by_cases erased : id = path
    · rw [erased, Finmap.lookup_erase, Finmap.lookup_erase]
    · rw [Finmap.lookup_erase_ne erased, Finmap.lookup_erase_ne erased]
      exact lagging.same id other
  | createUpdateDeleteRRSets name p =>
    have isValid := valid rfl
    obtain ⟨data, -, -, near⟩ := pdnsDo_createUpdateDeleteRRSets isValid done
    have sameMaster : servers'.master = servers.master := by
      simp only [pdnsDo, Option.bind_eq_bind, Option.bind_eq_some_iff] at done
      obtain ⟨sentData, -, done⟩ := done
      split at done
      · exact (Option.some.inj done) ▸ rfl
      · simp only [Option.bind_eq_some_iff] at done
        obtain ⟨id, -, sent⟩ := done
        obtain ⟨zone, -, isNext⟩ := Option.map_eq_some_iff.mp (handle_of_send sent)
        exact isNext ▸ rfl
    refine ⟨fun other member => ?_, fun id other => ?_⟩
    · rcases Finset.mem_insert.mp member with rfl | old
      · exact isValid
      · exact lagging.valid other old
    · rw [sameMaster, near id (other name (Finset.mem_insert_self ..))]
      exact lagging.same id fun n old => other n (Finset.mem_insert_of_mem old)

private theorem lagging_of_execute {progress next : Progress} {change : PDNSChange}
    (valid : change.axfrRequired = true → validateDomainName unicode change.domainName = true)
    (lagging : Lagging unicode progress.axfrRequired progress.servers)
    (done : execute unicode settings accepts orders progress change = some next) :
    Lagging unicode next.axfrRequired next.servers := by
  simp only [execute, Option.bind_eq_bind, Option.bind_eq_some_iff, Option.pure_def,
    Option.some.injEq] at done
  obtain ⟨middle, pdns, db, -, last, pch, rfl⟩ := done
  have moved := lagging_of_pdnsDo valid lagging pdns
  split at pch
  · exact pchDo_eq pch ▸ moved
  · exact Option.some.inj pch ▸ moved

private theorem domainName_of_changesOf {t : PDNSChangeTracker} {db : Database} {name : Text}
    {own : List PDNSChange} (computed : changesOf t db name = some own) :
    ∀ change ∈ own, change.domainName = name := by
  have made : ∀ change ∈ (if name ∈ t.domainAdditions then [PDNSChange.createDomain name] else []),
      change.domainName = name := by
    intro change member
    split at member
    · rw [List.mem_singleton.mp member]
      rfl
    · cases member
  simp only [changesOf, Option.ite_none_right_eq_some] at computed
  obtain ⟨-, computed⟩ := computed
  split at computed
  · exact Option.some.inj computed ▸ made
  · rw [← Option.some.inj computed]
    intro change member
    rcases List.mem_append.mp member with created | changed
    · exact made change created
    · rw [List.mem_singleton.mp changed]
      rfl

private theorem valid_of_computeChanges {start db : Database} {signals : List Signal}
    {t : PDNSChangeTracker} {changes : List PDNSChange}
    (tracked : Tracked unicode start db signals t)
    (named : Named unicode db) (computed : computeChanges orders t db = some changes)
    (change : PDNSChange) (member : change ∈ changes) (axfr : change.axfrRequired = true) :
    validateDomainName unicode change.domainName = true := by
  simp only [computeChanges, Option.bind_eq_bind, Option.bind_eq_some_iff, Option.pure_def,
    Option.some.injEq] at computed
  obtain ⟨later, computed, rfl⟩ := computed
  rcases List.mem_append.mp member with deletion | change'
  · obtain ⟨name, -, rfl⟩ := List.mem_map.mp deletion
    cases axfr
  · obtain ⟨own, isOwn, inside⟩ := List.mem_flatten.mp change'
    have all := mapM_eq_some_iff.mp computed
    obtain ⟨name, changed, isResult⟩ := Library.Runs.exists_of_forall₂_left all.flip isOwn
    rw [domainName_of_changesOf isResult change inside]
    exact valid_of_mem_changedNames tracked named changed

end Changes

section Blocks

variable {site : Site} {faults : Faults}

private theorem lagging_of_runChanges {changes : List PDNSChange}
    (valid : ∀ change ∈ changes, change.axfrRequired = true →
      validateDomainName site.unicode change.domainName = true) :
    ∀ {progress next : Progress} {whole : Bool},
      Lagging site.unicode progress.axfrRequired progress.servers →
      runChanges site faults changes progress = (next, whole) →
      Lagging site.unicode next.axfrRequired next.servers := by
  induction changes with
  | nil =>
    intro progress next whole lagging done
    exact (Prod.mk.inj done).1 ▸ lagging
  | cons change rest ih =>
    intro progress next whole lagging done
    rw [runChanges] at done
    split at done
    · exact (Prod.mk.inj done).1 ▸ lagging
    · next middle executed =>
      exact ih (fun c member => valid c (List.mem_cons_of_mem _ member))
        (lagging_of_execute (valid change (List.mem_cons_self ..)) lagging executed) done

private theorem lagging_of_transfers {names : List Text} :
    ∀ {servers servers' : Servers}, Lagging site.unicode names.toFinset servers →
      transfers site faults names servers = (servers', true) → Lagging site.unicode ∅ servers' := by
  induction names with
  | nil =>
    intro servers servers' lagging done
    exact (Prod.mk.inj done).1 ▸ lagging
  | cons name rest ih =>
    intro servers servers' lagging done
    rw [transfers] at done
    split at done
    · cases (Prod.mk.inj done).2
    · next next moved =>
      simp only [transfer, Option.bind_eq_bind, Option.bind_eq_some_iff] at moved
      obtain ⟨id, path, sent⟩ := moved
      have isId := pdnsId_eq (lagging.valid name (by simp)) path
      have handled := handle_of_send sent
      simp only [handle, Option.ite_none_left_eq_some, Option.map_eq_some_iff] at handled
      obtain ⟨-, zone, found, rfl⟩ := handled
      refine ih ⟨fun n member => lagging.valid n (by simp_all), fun other apart => ?_⟩ done
      by_cases here : other = id
      · rw [here, Finmap.lookup_insert, found]
      · rw [Finmap.lookup_insert_of_ne _ here]
        refine lagging.same other fun n member => ?_
        rcases List.mem_cons.mp (List.mem_toFinset.mp member) with rfl | later
        · exact isId ▸ here
        · exact apart n (List.mem_toFinset.mpr later)

end Blocks

section Runs

variable {unicode : Unicode} {system : System} {call : Call unicode}

private theorem lagging_of_committed {site : Site} {faults : Faults} {session : Session}
    {next : System}
    (lagging : Lagging site.unicode ∅ system.servers)
    (told : Told site.unicode system.db session.sent session.db)
    (committed : exit site faults system session = (.committed true, next)) :
    Lagging site.unicode ∅ next.servers := by
  obtain ⟨t, received, tracked⟩ := tracked_of_told told
  rw [exit, received] at committed
  dsimp only at committed
  split at committed
  · cases committed
  · next changes computed =>
    split at computed
    · cases computed
    · split at committed
      · cases committed
      · next progress done =>
        have waiting := lagging_of_runChanges (valid_of_computeChanges tracked told.named computed)
          lagging done
        obtain ⟨answer, rfl⟩ := Prod.mk.inj committed
        refine lagging_of_transfers ?_ (Prod.ext rfl (Answer.committed.inj answer))
        rwa [show (site.orders.names.visit progress.axfrRequired).toFinset
          = progress.axfrRequired by
          ext; simp]

private theorem lagging_of_block {site : Site} {faults : Faults} {result : Except Refusal Session}
    (lagging : Lagging site.unicode ∅ system.servers) (sound : Sound site faults system result)
    (transferred : (block site faults system result).1 ≠ .committed false) :
    Lagging site.unicode ∅ (block site faults system result).2.servers := by
  cases result with
  | error refusal => exact lagging
  | ok session =>
    rw [block] at transferred ⊢
    cases left : exit site faults system session with
    | mk answer next =>
      cases answer with
      | refused refusal =>
        obtain rfl := failed_of_exit left
        exact sound.undone session next rfl left ▸ lagging
      | committed published =>
        cases published with
        | false => exact absurd (left ▸ rfl) transferred
        | true => exact lagging_of_committed lagging (sound.told session rfl) left

private theorem lagging_of_respond (served : Served call.site.unicode system)
    (smooth : Smooth system call) (lagging : Lagging call.site.unicode ∅ system.servers)
    (transferred : (respond call system).1 ≠ .committed false) :
    Lagging call.site.unicode ∅ (respond call system).2.servers := by
  have first (done : (firstBlock call system).1 ≠ .committed false) :
      Lagging call.site.unicode ∅ (firstBlock call system).2.servers := by
    rcases sound_of_firstBlock served smooth with same | ⟨result, same, sound⟩
    · exact same ▸ lagging
    · rw [same] at done ⊢
      exact lagging_of_block lagging sound done
  have mirrored := served_of_firstBlock served smooth
  revert transferred
  unfold respond
  split
  · next next child keys blocked asked =>
    intro transferred
    rw [blocked] at first mirrored
    exact lagging_of_block (first (by simp))
      (sound_of_delegation mirrored (smooth.delegable child keys asked)) transferred
  · exact first

/-- All calls of a run are smooth, and the zones they change are transferred. -/
def Transferring : System → List (Call unicode) → Prop
  | _, [] => True
  | system, call :: rest =>
      (respond call system).1 ≠ .committed false ∧ Transferring (respond call system).2 rest

private theorem lagging_of_run {calls : List (Call unicode)} (served : Served unicode system)
    (lagging : Lagging unicode ∅ system.servers) (smooth : Along system calls)
    (transferring : Transferring system calls) : Lagging unicode ∅ (run system calls).servers := by
  induction calls generalizing system with
  | nil => exact lagging
  | cons call rest ih =>
    have same (s : Servers) : Lagging call.site.unicode ∅ s ↔ Lagging unicode ∅ s := by
      rw [call.sameUnicode]
    have here : Served call.site.unicode system := by rwa [call.sameUnicode]
    have next := (served_of_run served ⟨smooth.1, trivial⟩ : Served unicode (run system [call]))
    exact ih next ((same _).mp (lagging_of_respond here smooth.1 ((same _).mpr lagging)
      transferring.1)) smooth.2 transferring.2

end Runs

section Main

variable {unicode : Unicode}

/-- As long as the transfers succeed, nsmaster has exactly the zones of the existing domains, each
with the RRsets of the database that have records. -/
theorem secondaries_serve (system : System) (calls : List (Call unicode))
    (named : Named unicode system.db) (mirrors : Mirrors system.db system.servers)
    (same : system.servers.master = system.servers.lord)
    (smooth : Along system calls) (transferring : Transferring system calls) :
    Mirrors (run system calls).db
      { (run system calls).servers with lord := (run system calls).servers.master } := by
  have served := served_of_run ⟨named, mirrors⟩ smooth
  have lagging := lagging_of_run ⟨named, mirrors⟩
    ⟨fun _ member => absurd member (Finset.notMem_empty _), fun _ _ => by rw [same]⟩ smooth
    transferring
  have equal (id : Text) := lagging.same id fun _ member => absurd member (Finset.notMem_empty _)
  refine ⟨fun name present => ?_, fun id present => ?_⟩
  · obtain ⟨zone, found, mirrored⟩ := served.mirrors.zones name present
    exact ⟨zone, (equal _).trans found, mirrored⟩
  · exact served.mirrors.domains id (equal id ▸ present)

end Main

section Sample

private def name₁₀ : Text := "a.test".toList

/-- A domain is created and gets an address. -/
private def calls₁₀ : List (Call .plain) :=
  [plainCall accepting ∅ (.createDomain name₁₀ none []),
    plainCall accepting {name₁₀} (.records (.post name₁₀ (.dict
      [("type".toList, .str "A".toList), ("subname".toList, .str []), ("ttl".toList, .int 3600),
        ("records".toList, .list [.str "192.0.2.1".toList])])) rfl)]

theorem secondaries_serve_address :
    ((run nothing calls₁₀).servers.master.lookup (zoneId name₁₀)).bind
        (fun zone => zone.lookup (zoneKey name₁₀ ("A".toList, []))) =
        some ⟨3600, {"192.0.2.1".toList}⟩ ∧
      Mirrors (run nothing calls₁₀).db
        { (run nothing calls₁₀).servers with lord := (run nothing calls₁₀).servers.master } := by
  refine ⟨by decide +kernel, secondaries_serve nothing calls₁₀ (fun _ member => ?_) mirrors_nothing
    rfl ⟨⟨fun _ => by decide +kernel, ?_⟩, ⟨fun asks => ?_, ?_⟩, trivial⟩
    ⟨by decide +kernel, by decide +kernel, trivial⟩⟩
  · exact absurd member Finmap.notMem_empty
  · intro child keys asked registrable
    cases asked
    exact absurd registrable (by decide +kernel)
  · cases asks
  · intro child keys asked
    cases asked

end Sample

end DesecStack.Tenants.Secondaries
