/- module: DesecStack/Tenants/Mirrored
   layer: main results
   digest: After any requests, nslord has the zones of the database, whatever PowerDNS refuses of
     changes to RRsets. -/

import DesecStack.Tenants.Isolation
import DesecStack.Tenants.Published
import DesecStack.Views.Atomic

set_option autoImplicit false
set_option relaxedAutoImplicit false

namespace DesecStack.Tenants.Mirrored

open Library.PyText (Text Unicode)
open Library.Runs (bind_eq_ok_iff)
open Library.Journal (Event Settled)
open Changes.Models
open Changes.History
open Changes.Tracker
open Changes.Pdns
open Changes.Mirror
open Names.Qnames (parentDomainName)
open Domains.Delegation (delegating ds)
open Records.Serializer (Context Instance)
open Records.Save (Session Env)
open Records.Frames (About)
open Records.Traces
open Records.BulkExact (Method)
open Records.Fields (Json)
open Views.Stored (isRRsetWrite)
open Views.Writes (Site Caller WriteRequest Refusal envOf conditionalSave saved)
open Views.Bulk (Faults System Answer exit transfers)
open Views.Atomic
open Isolation (plainSite)
open Published

section Exit

variable {site : Site} {faults : Faults} {before after : System} {session : Session}

private theorem mirrors_of_committed {published : Bool} (named : Named site.unicode before.db)
    (mirrors : Mirrors before.db before.servers)
    (told : Told site.unicode before.db session.sent session.db)
    (settled : AllSettled before.db session.db session.sent)
    (committed : exit site faults before session = (.committed published, after)) :
    Named site.unicode after.db ∧ Mirrors after.db after.servers := by
  obtain ⟨t, received, tracked⟩ := tracked_of_told told
  rw [exit, received] at committed
  dsimp only at committed
  split at committed
  · cases committed
  · next changes computed =>
    split at computed
    · cases computed
    · split at committed
      · cases committed
      · next progress done =>
        have executed := executed_of_executeAll tracked named told.named computed
          (foldlM_of_runChanges done)
        obtain ⟨zones, domains⟩ :=
          (mirrors_iff_allSettled tracked named told.named mirrors executed).mpr settled
        have lord : (transfers site faults (site.orders.names.visit progress.axfrRequired)
            progress.servers).1.lord = progress.servers.lord := lord_of_transfers _
        obtain rfl := (Prod.mk.inj committed).2
        refine ⟨fun d member => told.named d ?_, fun d present => ?_, fun id present => ?_⟩
        · rw [← Finmap.lookup_isSome, ← executed.present d]
          exact Finmap.lookup_isSome.mpr member
        · rw [lord]
          exact zones d present
        · rw [lord] at present
          exact domains id present

end Exit

section Records

variable {site : Site} {caller : Caller} {db : Database} {session : Session}

private theorem save_of_saved {result : Records.Save.Saved} (done : saved result = .ok session) :
    result = .ok session := by
  cases result with
  | error failure => cases done
  | ok other => exact congrArg _ (Except.ok.inj done)

private theorem traced_of_saveMany {name : Text} {ctx : Context} {method : Method}
    {selected : Finset Item}
    {first : Session} {data : Json}
    (done : Views.Writes.saveMany site name ctx method selected first data = .ok session) :
    Traced (envOf site name) (Fresh first.db name) first session := by
  unfold Views.Writes.saveMany at done
  split at done
  · cases done
  · exact traced_of_save (save_of_saved done)

private theorem traced_of_conditionalSave {env : Env} {first : Session} {instance? : Instance}
    {attrs : Records.Serializer.Attrs}
    (done : conditionalSave env first instance? attrs = .ok session) :
    Traced env (Fresh first.db env.name) first session := by
  unfold conditionalSave at done
  split at done
  · exact traced_of_update done
  · exact traced_of_delete done
  · refine traced_of_create ?_ done
    unfold Records.Save.create at done
    split at done
    · simp only [bind_eq_ok_iff] at done
      obtain ⟨next, added, -⟩ := done
      exact (Records.Values.value_of_createRRset added).2.1
    · cases done
  · exact Except.ok.inj done ▸ Traced.refl _ _ _

private theorem traced_of_saveOne {name : Text} {ctx : Context} {isPartial : Bool}
    {instance? : Instance}
    {data : Json} (done : saveOne site db name ctx isPartial instance? data = .ok session) :
    Traced (envOf site name) (Fresh db name) ⟨db, []⟩ session := by
  unfold saveOne at done
  split at done
  · split at done
    · cases done
    · exact traced_of_conditionalSave (save_of_saved done)
  · cases done

private theorem traced_of_body {request : WriteRequest} (onRRsets : isRRsetWrite request = true)
    (done : body site caller db request = .ok session) :
    ∃ name, Traced (envOf site name) (Fresh db name) ⟨db, []⟩ session := by
  cases request with
  | post name data =>
    simp only [body, post, bind_eq_ok_iff] at done
    obtain ⟨rrsets, -, done⟩ := done
    refine ⟨name, ?_⟩
    split at done
    · exact traced_of_saveMany done
    · exact traced_of_saveOne done
  | update isPartial name query data =>
    simp only [body, updateMany, bind_eq_ok_iff] at done
    obtain ⟨rrsets, -, selected, -, done⟩ := done
    exact ⟨name, traced_of_saveMany done⟩
  | updateDetail isPartial name item data =>
    simp only [body, updateDetail, bind_eq_ok_iff] at done
    obtain ⟨rrsets, -, rrset, -, done⟩ := done
    exact ⟨name, traced_of_saveOne done⟩
  | destroyDetail name item =>
    simp only [body, destroyDetail, bind_eq_ok_iff] at done
    obtain ⟨rrsets, -, rrset, -, done⟩ := done
    split at done
    · cases done
    · exact ⟨name, traced_of_delete (save_of_saved done)⟩
  | dynDns name subnames rows =>
    simp only [body, dynDnsSave, bind_eq_ok_iff] at done
    obtain ⟨rrsets, -, done⟩ := done
    exact ⟨name, traced_of_saveMany done⟩
  | createDomain name zonefile => cases onRRsets

end Records

section Domains

variable {site : Site} {caller : Caller} {db : Database} {session : Session} {name : Text}

private theorem settled_of_silent {start : Option RRset} {events : List Event}
    (silent : .created ∉ events) : Settled RRset.blank start events :=
  fun _ created => absurd created silent

private theorem settled_of_createDomain {zonefile : Option Text} (named : Named site.unicode db)
    (done : createDomain site caller db name zonefile = .ok session) :
    Told site.unicode db session.sent session.db ∧ AllSettled db session.db session.sent := by
  unfold createDomain at done
  split at done
  · cases done
  · split at done
    · cases done
    · simp only [bind_eq_ok_iff] at done
      obtain ⟨rrsets, -, done⟩ := done
      split at done
      · cases done
      · split at done
        · cases done
        · next created sent performed =>
          obtain ⟨operations, later, fresh, rest, isSent⟩ := traced_of_saveMany done
          have first := (told_start named).step (effect_of_perform performed)
          have told := told_of_performAll operations first rest
          simp only [perform, Option.ite_none_right_eq_some, Option.some.injEq, Prod.mk.injEq]
            at performed
          obtain ⟨⟨absent, -⟩, -, rfl⟩ := performed
          rw [isSent]
          refine ⟨told, fun d item there _ _ => settled_of_silent ?_⟩
          have other : d ≠ name := by
            rintro rfl
            rw [absent] at there
            cases there
          rw [events_append, events_of_telling (telling_of_performAll fresh rest) other]
          simp [Signal.event]

private theorem settled_of_destroyDomain (named : Named site.unicode db)
    (done : destroyDomain site caller db name = .ok session) :
    Told site.unicode db session.sent session.db ∧ AllSettled db session.db session.sent := by
  unfold destroyDomain at done
  split at done
  · split at done
    · cases done
    · next erased sent performed =>
      obtain rfl := Except.ok.inj done
      have told := (told_start named).step (effect_of_perform performed)
      refine ⟨told, fun d item _ here _ => settled_of_silent ?_⟩
      simp only [perform, Option.map_eq_some_iff, Prod.mk.injEq] at performed
      obtain ⟨rrsets, -, rfl, rfl⟩ := performed
      have other : name ≠ d := by
        rintro rfl
        rw [Finmap.lookup_erase] at here
        cases here
      simp [deletedWithDomain, events_rows_of_ne other, events_items_of_ne other, Signal.event]
  · cases done

end Domains

section Delegations

variable {unicode : Unicode} {cascade : Cascade} {db db' : Database} {sent : List Signal}
  {parent : Text} {item : Item}

/-- The writes of a delegation, to the RRsets of the parent domain. -/
inductive Delegates (parent : Text) : Operation → Prop where
  | deleteRRset (item : Item) : Delegates parent (.deleteRRset parent item)
  | createRRset (item : Item) (ttl : Nat) : Delegates parent (.createRRset parent item ttl)
  | createRR (item : Item) (content : Text) : Delegates parent (.createRR parent item content)

private theorem delegates_createRRset {ttl : Nat} {contents : List Text} :
    ∀ operation ∈ createRRset parent item ttl contents, Delegates parent operation := by
  intro operation member
  rcases List.mem_cons.mp member with rfl | member
  · exact .createRRset item ttl
  · obtain ⟨content, -, rfl⟩ := List.mem_map.mp member
    exact .createRR item content

private theorem telling_of_delegates {operations : List Operation}
    (delegates : ∀ operation ∈ operations, Delegates parent operation)
    (done : performAll unicode cascade operations db = some (db', sent)) :
    ∀ signal ∈ sent, Telling ∅ parent signal := by
  induction operations generalizing db sent with
  | nil =>
    simp only [performAll, Option.some.injEq, Prod.mk.injEq] at done
    simp [← done.2]
  | cons operation rest ih =>
    obtain ⟨next, said, later, performed, after, rfl⟩ := performAll_cons done
    intro signal member
    rcases List.mem_append.mp member with now | then'
    · cases delegates operation (List.mem_cons_self ..) with
      | deleteRRset item =>
        exact telling_of_fresh ⟨⟨item, .deleteRRset⟩, fun _ _ creates => by cases creates⟩ performed
          signal now
      | createRRset item ttl =>
        exact telling_of_fresh ⟨⟨item, .createRRset ttl⟩, fun _ _ _ => rfl⟩ performed signal now
      | createRR item content =>
        simp only [perform, Option.bind_eq_some_iff, Option.ite_none_right_eq_some,
          Option.some.injEq, Prod.mk.injEq] at performed
        obtain ⟨old, -, -, -, rfl⟩ := performed
        rw [List.mem_singleton.mp now]
        exact rfl
    · exact ih (fun o there => delegates o (List.mem_cons_of_mem _ there)) after signal then'

private theorem events_of_createRRset {ttl : Nat} {contents : List Text}
    (done : performAll unicode cascade (createRRset parent item ttl contents) db
      = some (db', sent)) (i : Item) :
    events parent i sent
      = if i = item then .created :: contents.map fun _ => .modified else [] := by
  obtain ⟨next, said, later, performed, after, rfl⟩ := performAll_cons done
  have modified : events parent i later =
      if i = item then contents.map fun _ => .modified else [] := by
    clear performed done
    induction contents generalizing next later with
    | nil =>
      simp only [List.map_nil, performAll, Option.some.injEq, Prod.mk.injEq] at after
      simp [← after.2]
    | cons content rest ih =>
      obtain ⟨middle, own, others, performed, follows, rfl⟩ := performAll_cons after
      simp only [perform, Option.bind_eq_some_iff, Option.ite_none_right_eq_some,
        Option.some.injEq, Prod.mk.injEq] at performed
      obtain ⟨old, -, -, -, rfl⟩ := performed
      rw [List.singleton_append, events_cons, ih _ _ follows]
      by_cases same : i = item <;> simp [Signal.event, same, Ne.symm]
  simp only [perform, Option.bind_eq_some_iff, Option.ite_none_right_eq_some, Option.some.injEq,
    Prod.mk.injEq] at performed
  obtain ⟨rrsets, -, -, -, rfl⟩ := performed
  rw [List.singleton_append, events_cons, modified]
  by_cases same : i = item
  · simp [Signal.event, same]
  · simp [Signal.event, same, Ne.symm same]

private theorem created_of_removals {items : List Item}
    (done : performAll unicode cascade (items.map (.deleteRRset parent)) db = some (db', sent))
    (i : Item) : .created ∉ events parent i sent := by
  induction items generalizing db sent with
  | nil =>
    simp only [List.map_nil, performAll, Option.some.injEq, Prod.mk.injEq] at done
    simp [← done.2]
  | cons item rest ih =>
    obtain ⟨next, own, others, performed, follows, rfl⟩ := performAll_cons done
    simp only [perform, Option.map_eq_some_iff, Prod.mk.injEq] at performed
    obtain ⟨old, -, -, rfl⟩ := performed
    rw [events_append, events_append, List.mem_append, List.mem_append]
    rintro ((row | own) | later)
    · cases events_rows_modified _ _ _ _ _ row
    · simp [Signal.event] at own
    · exact ih follows later

private theorem getLast?_created {front : List Event} {contents : List Text}
    (nonempty : contents ≠ []) :
    (front ++ Event.created :: contents.map fun _ => Event.modified).getLast? = some .modified := by
  rw [List.map_const', List.getLast?_append, List.getLast?_cons]
  simp [List.getLast?_replicate, nonempty]

variable {site : Site} {session : Session} {child : Text} {keys : Option (List (List Text))}

/-- A domain that is delegated has name servers and DS records. -/
def Delegable (site : Site) (child : Text) (keys : Option (List (List Text))) : Prop :=
  site.isLocallyRegistrable child = true → ∀ given, keys = some given →
    site.settings.defaultNs ≠ [] ∧ given.flatten ≠ []

private theorem delegates_of_writes {operations : List Operation}
    (writes : delegationWrites site db parent child keys = some operations) :
    ∀ operation ∈ operations, Delegates parent operation := by
  have removed : ∀ operation ∈ removals site db parent child, Delegates parent operation := by
    intro operation member
    obtain ⟨item, -, rfl⟩ := List.mem_map.mp member
    exact .deleteRRset item
  unfold delegationWrites at writes
  rw [Option.ite_none_left_eq_some] at writes
  obtain ⟨-, writes⟩ := writes
  split at writes
  · exact Option.some.inj writes ▸ removed
  · cases writes
  · rw [← Option.some.inj writes]
    simp only [List.mem_append]
    rintro operation ((old | ns) | ds)
    · exact removed operation old
    · exact delegates_createRRset operation ns
    · exact delegates_createRRset operation ds

private theorem settled_of_writes {operations : List Operation}
    (delegable : ∀ given, keys = some given → site.settings.defaultNs ≠ [] ∧ given.flatten ≠ [])
    (writes : delegationWrites site db parent child keys = some operations)
    (done : performAll unicode cascade operations db = some (db', sent)) (start : Option RRset) :
    Settled RRset.blank start (events parent item sent) := by
  unfold delegationWrites at writes
  rw [Option.ite_none_left_eq_some] at writes
  obtain ⟨-, writes⟩ := writes
  split at writes
  · rw [← Option.some.inj writes] at done
    exact settled_of_silent (created_of_removals done item)
  · cases writes
  · next given _ =>
    obtain ⟨someNs, someDs⟩ := delegable given rfl
    rw [← Option.some.inj writes] at done
    obtain ⟨middle, own, dsSent, first, dsDone, rfl⟩ := performAll_append done
    obtain ⟨removed, old, nsSent, gone, nsDone, rfl⟩ := performAll_append first
    intro _ created
    rw [events_append, events_append, events_of_createRRset nsDone,
      events_of_createRRset dsDone] at created ⊢
    by_cases isDs : item = delegating ds child
    · rw [if_pos isDs]
      exact getLast?_created someDs
    · rw [if_neg isDs, List.append_nil] at created ⊢
      by_cases isNs : item = delegating ns child
      · rw [if_pos isNs]
        exact getLast?_created someNs
      · rw [if_neg isNs, List.append_nil] at created
        exact absurd created (created_of_removals gone item)

private theorem settled_of_delegation (named : Named site.unicode db)
    (delegable : Delegable site child keys)
    (done : delegation site db child keys = .ok session) :
    Told site.unicode db session.sent session.db ∧
      (∃ parent, ∀ signal ∈ session.sent, Telling ∅ parent signal) ∧
      AllSettled db session.db session.sent := by
  unfold delegation at done
  split at done
  · next registrable =>
    split at done
    · cases done
    · next parent _ =>
      split at done
      · cases done
      · next delegated sent performed =>
        obtain rfl := Except.ok.inj done
        obtain ⟨operations, writes, performed⟩ := Option.bind_eq_some_iff.mp performed
        have telling := telling_of_delegates (delegates_of_writes writes) performed
        refine ⟨by simpa using told_of_performAll operations (told_start named) performed,
          ⟨parent, telling⟩, fun d item _ _ _ => ?_⟩
        by_cases same : d = parent
        · rw [same]
          exact settled_of_writes (delegable registrable) writes performed _
        · rw [events_of_telling telling same]
          exact settled_of_silent List.not_mem_nil
  · obtain rfl := Except.ok.inj done
    refine ⟨told_start named, ⟨[], fun _ member => absurd member List.not_mem_nil⟩,
      fun _ _ _ _ _ => settled_of_silent List.not_mem_nil⟩

end Delegations

section Runs

variable {unicode : Unicode} {system : System} {call : Call unicode}

/-- The names of domains are valid, and nslord has the zones of the database. -/
structure Served (unicode : Unicode) (system : System) : Prop where
  named : Named unicode system.db
  mirrors : Mirrors system.db system.servers

/-- The creation or deletion of a domain does not raise in its first tracker block, and it does not
delegate the domain without records. -/
structure Smooth (system : System) (call : Call unicode) : Prop where
  finished : (delegated call.request).isSome = true → (firstBlock call system).1 ≠ .refused .failed
  delegable : ∀ child keys, delegated call.request = some (child, keys) →
    Delegable call.site child keys

/-- All calls of a run are smooth. -/
def Along : System → List (Call unicode) → Prop
  | _, [] => True
  | system, call :: rest => Smooth system call ∧ Along (respond call system).2 rest

theorem failed_of_exit {site : Site} {faults : Faults} {session : Session} {refusal : Refusal}
    {after : System} (refused : exit site faults system session = (.refused refusal, after)) :
    refusal = .failed := by
  unfold exit at refused
  split at refused
  · exact (Answer.refused.inj (Prod.mk.inj refused).1).symm
  · split at refused
    · exact (Answer.refused.inj (Prod.mk.inj refused).1).symm
    · split at refused
      · exact (Answer.refused.inj (Prod.mk.inj refused).1).symm
      · cases refused

/-- What a block writes is told and settled, and nothing is left of it if it raises on leaving. -/
structure Sound (site : Site) (faults : Faults) (system : System)
    (result : Except Refusal Session) : Prop where
  told (session : Session) (done : result = .ok session) :
    Told site.unicode system.db session.sent session.db
  settled (session : Session) (done : result = .ok session) :
    AllSettled system.db session.db session.sent
  undone (session : Session) (after : System) (done : result = .ok session)
    (raised : exit site faults system session = (.refused .failed, after)) : after = system

private theorem served_of_block {site : Site} {faults : Faults} {result : Except Refusal Session}
    (served : Served site.unicode system) (sound : Sound site faults system result) :
    Served site.unicode (block site faults system result).2 := by
  cases result with
  | error refusal => exact served
  | ok session =>
    rw [block]
    cases left : exit site faults system session with
    | mk answer after =>
      cases answer with
      | refused refusal =>
        obtain rfl := failed_of_exit left
        exact sound.undone session after rfl left ▸ served
      | committed published =>
        obtain ⟨named, mirrors⟩ := mirrors_of_committed served.named served.mirrors
          (sound.told session rfl) (sound.settled session rfl) left
        exact ⟨named, mirrors⟩

theorem sound_of_firstBlock (served : Served call.site.unicode system)
    (smooth : Smooth system call) :
    firstBlock call system = (.committed true, system) ∨
      ∃ result, firstBlock call system = block call.site call.faults system result ∧
        Sound call.site call.faults system result := by
  obtain ⟨site, rfl, faults, laterFaults, caller, request⟩ := call
  have finished := smooth.finished
  cases request with
  | records request onRRsets =>
    have sound : Sound site faults system (body site caller system.db request) := by
      refine ⟨fun session done => ?_, fun session done d item _ _ _ => ?_,
        fun session after done raised => ?_⟩ <;>
        obtain ⟨name, traced⟩ := traced_of_body onRRsets done <;>
        obtain ⟨told, telling⟩ := told_of_traced traced served.named
      · exact told
      · by_cases same : d = name
        · intro shows created
          rw [same] at shows created
          simp [new_of_telling telling created, Library.Journal.shown] at shows
        · rw [events_of_telling telling same]
          exact settled_of_silent List.not_mem_nil
      · exact stays_of_exit_of_telling told telling raised
    simp only [firstBlock, recordsBlock]
    split
    · exact .inl rfl
    · exact .inr ⟨_, rfl, sound⟩
  | createDomain name zonefile keys =>
    refine .inr ⟨_, rfl, fun session done => (settled_of_createDomain served.named done).1,
      fun session done => (settled_of_createDomain served.named done).2,
      fun session after done raised => absurd ?_ (finished rfl)⟩
    simp only [firstBlock, done, block, raised]
  | destroyDomain name =>
    refine .inr ⟨_, rfl, fun session done => (settled_of_destroyDomain served.named done).1,
      fun session done => (settled_of_destroyDomain served.named done).2,
      fun session after done raised => absurd ?_ (finished rfl)⟩
    simp only [firstBlock, done, block, raised]

theorem sound_of_delegation {site : Site} {faults : Faults} {child : Text}
    {keys : Option (List (List Text))} (served : Served site.unicode system)
    (delegable : Delegable site child keys) :
    Sound site faults system (delegation site system.db child keys) := by
  refine ⟨fun session done => ?_, fun session done => ?_, fun session after done raised => ?_⟩ <;>
    obtain ⟨told, ⟨parent, telling⟩, settled⟩ := settled_of_delegation served.named delegable done
  · exact told
  · exact settled
  · exact stays_of_exit_of_telling told telling raised

theorem served_of_firstBlock (served : Served call.site.unicode system)
    (smooth : Smooth system call) : Served call.site.unicode (firstBlock call system).2 := by
  rcases sound_of_firstBlock served smooth with same | ⟨result, same, sound⟩
  · exact same ▸ served
  · exact same ▸ served_of_block served sound

private theorem served_of_respond (served : Served call.site.unicode system)
    (smooth : Smooth system call) : Served call.site.unicode (respond call system).2 := by
  have first := served_of_firstBlock served smooth
  unfold respond
  split
  · next next child keys blocked asked =>
    rw [blocked] at first
    exact served_of_block first (sound_of_delegation first (smooth.delegable child keys asked))
  · exact first

/-- A run keeps nslord a mirror. -/
theorem served_of_run {calls : List (Call unicode)} (served : Served unicode system)
    (smooth : Along system calls) : Served unicode (run system calls) := by
  induction calls generalizing system with
  | nil => exact served
  | cons call rest ih =>
    have same (s : System) : Served call.site.unicode s ↔ Served unicode s := by
      rw [call.sameUnicode]
    exact ih ((same _).mp (served_of_respond ((same _).mpr served) smooth.1)) smooth.2

end Runs

section Main

variable {unicode : Unicode}

/-- Whatever requests are handled, nslord has the zones of the existing domains with the RRsets that
have records, no matter which changes to RRsets PowerDNS refuses. Only the creation or deletion of a
domain has to be finished once PowerDNS is told. -/
theorem mirrors_run (system : System) (calls : List (Call unicode))
    (named : Named unicode system.db) (mirrors : Mirrors system.db system.servers)
    (smooth : Along system calls) :
    Mirrors (run system calls).db (run system calls).servers :=
  (served_of_run ⟨named, mirrors⟩ smooth).mirrors

end Main

section Sample

/-- A request with a token that may do everything, of a user without MFA. -/
def plainCall (faults : Faults) (domains : Finset Text) (request : Published.Request) :
    Call .plain where
  site := plainSite
  sameUnicode := rfl
  faults := faults
  laterFaults := faults
  caller := ⟨⟨1, 1, none, none, true, true, true, false⟩, [], false, domains, none⟩
  request := request

def accepting : Faults := Views.Bulk.noFaults fun _ _ => true

private def refusing : Faults := Views.Bulk.noFaults fun _ _ => false

def nothing : System := ⟨∅, ∅, ∅, ∅⟩

theorem mirrors_nothing : Mirrors nothing.db nothing.servers :=
  ⟨fun _ present => (Bool.false_ne_true present).elim,
    fun _ present => (Bool.false_ne_true present).elim⟩

private def parent₉ : Text := "dyn.test".toList

private def child₉ : Text := "b.dyn.test".toList

/-- A domain is created under another one; PowerDNS refuses a change to it, and it is deleted. -/
private def calls₉ : List (Call .plain) :=
  [plainCall accepting ∅ (.createDomain parent₉ none []),
    plainCall accepting {parent₉} (.createDomain child₉ none [["1 8 2 ab".toList]]),
    plainCall refusing {parent₉, child₉} (.records (.destroyDetail parent₉ (ns, [])) rfl),
    plainCall accepting {parent₉, child₉} (.destroyDomain child₉)]

/-- The delegation comes and goes. -/
theorem mirrors_run_delegated :
    value (run nothing (calls₉.take 3)).db parent₉ (delegating ds child₉) =
        some ⟨300, {"1 8 2 ab".toList}⟩ ∧
      Mirrors (run nothing calls₉).db (run nothing calls₉).servers := by
  refine ⟨by decide +kernel, mirrors_run nothing calls₉ (fun _ member => ?_) mirrors_nothing ?_⟩
  · exact absurd member Finmap.notMem_empty
  · refine ⟨⟨fun _ => by decide +kernel, ?_⟩, ⟨fun _ => by decide +kernel, ?_⟩,
      ⟨fun asks => ?_, ?_⟩, ⟨fun _ => by decide +kernel, ?_⟩, trivial⟩
    · intro child keys asked registrable
      cases asked
      exact absurd registrable (by decide +kernel)
    · intro child keys asked _ given same
      cases asked
      cases same
      exact ⟨List.cons_ne_nil _ _, List.cons_ne_nil _ _⟩
    · cases asks
    · intro child keys asked
      cases asked
    · intro child keys asked _ given same
      cases asked
      cases same

end Sample

end DesecStack.Tenants.Mirrored
