import WVmm.Devices.Memory
import WVmm.Lib.Table

/-! Every way a virtio-mem transaction can end. The mapper only has to be atomic
on error; which of its calls fail is left open, also during rollback. -/
namespace WVmm.Devices
open Lib.Effect Lib.Table

namespace Txn

variable {M : Type}

def withMapper (t : Txn M) (mapper : M) (trace : List Action) : Txn M :=
  {t with mapper := mapper, cell := {t.cell with trace := trace}}

def withMemory (t : Txn M) (host : Host) (allocations : Nat) : Txn M :=
  {t with cell := {t.cell with world := {t.cell.world with host := host, allocations := allocations}}}

def call (plug : Bool) (r : Region) : Action := if plug then .map r (some ()) else .unmap r (some ())

end Txn

/-- Some call that the mapper could have carried out was refused. -/
def Refused {M : Type} [Mapper M] (table : M → Nat → Option Region) : Prop :=
  ∃ (m : M) (r : Region) (e : MemoryError),
    (table m r.start = none ∧ (Mapper.map m r).1 = .error e) ∨
    (table m r.start = some r ∧ (Mapper.unmap m r).1 = .error e)

theorem reliable_never_refuses {M : Type} [Mapper M] {table : M → Nat → Option Region}
    (reliable : Mapper.Reliable table) : ¬Refused table := by
  rintro ⟨m,r,e,⟨absent,refused⟩ | ⟨present,refused⟩⟩
  · rw [reliable.maps m r absent] at refused
    cases refused
  · rw [reliable.unmaps m r present] at refused
    cases refused

def Exhausted (env : Env) : Prop := ∃ n live addr len e, env.allocate n live addr len = .error e

namespace VirtioMem

variable {M : Type}

/-- What a plug needs of the view: room for every block, also beside the others. -/
structure Room (d : VirtioMem) (addresses : List Nat) (view : GuestMemoryMmap) : Prop where
  positive : 0 < d.blockLen
  apart : addresses.Pairwise (fun a b => a + d.blockLen ≤ b ∨ b + d.blockLen ≤ a)
  free : ∀ a ∈ addresses, ∀ q ∈ view.regions, a + d.blockLen ≤ q.start ∨ q.start + q.len ≤ a

/-- The first block fits, and the others still do beside it. -/
theorem Room.insert {env : Env} (lawful : env.vm.Lawful) {d : VirtioMem} {a : Nat} {rest : List Nat}
    {view : GuestMemoryMmap} (room : Room d (a::rest) view) (ptr n : Nat) :
    ∃ next, env.vm.insertRegion view ⟨a,d.blockLen,ptr,n⟩ = .ok next ∧
      (∀ q, q ∈ next.regions ↔ q = ⟨a,d.blockLen,ptr,n⟩ ∨ q ∈ view.regions) ∧ Room d rest next := by
  have disjoint : ∀ q ∈ view.regions, ¬(⟨a,d.blockLen,ptr,n⟩ : Region).Overlaps q := by
    rintro q member ⟨_,_⟩
    have := room.free a (by simp) q member
    simp only at *
    omega
  obtain ⟨next,inserted⟩ := lawful.insert_succeeds view ⟨a,d.blockLen,ptr,n⟩ room.positive disjoint
  have regions := lawful.insert_regions view _ next inserted
  have apart := List.pairwise_cons.mp room.apart
  refine ⟨next,inserted,regions,room.positive,apart.2,?_⟩
  intro b member q inside
  rcases (regions q).mp inside with rfl | old
  · exact (apart.1 b member).symm
  · exact room.free b (by simp [member]) q old

/-- The region of a block to plug is a fresh allocation. -/
theorem stageRegion_plug (env : Env) (a : Nat) (view : GuestMemoryMmap) (t : Txn M) :
    (stageRegion env true a view t.cell.device : Prog (Txn M) _ _).run t =
      match env.allocate t.cell.world.allocations view.regions a t.cell.device.blockLen with
      | .error e => (.error (.error (.guestMemory e)),
          t.withMemory t.cell.world.host (t.cell.world.allocations + 1))
      | .ok ptr => (.ok ⟨a,t.cell.device.blockLen,ptr,t.cell.world.allocations⟩,t.withMemory
          (fun p => if ptr ≤ p ∧ p < ptr + t.cell.device.blockLen then 0 else t.cell.world.host p)
          (t.cell.world.allocations + 1)) := by
  simp only [stageRegion,if_true,Txn.onWorld,Txn.onCell,Cell.onWorld,Prog.run_zoom,World.fromRange,
    Prog.run_mk]
  cases env.allocate t.cell.world.allocations view.regions a t.cell.device.blockLen <;> rfl

/-- Staging a plug allocates one region for each address and adds them all; only
an allocation can fail. -/
theorem stage_plug (env : Env) (lawful : env.vm.Lawful) (addresses : List Nat)
    (view : GuestMemoryMmap) (t : Txn M) (room : Room t.cell.device addresses view) :
    ∃ result host allocations, (stage env true addresses view).run t =
        (result,t.withMemory host allocations) ∧
      (∀ regions last, result = .ok (regions,last) → regions.map Region.start = addresses ∧
        (∀ r ∈ regions, r.len = t.cell.device.blockLen) ∧
        ∀ q, q ∈ last.regions ↔ q ∈ regions ∨ q ∈ view.regions) ∧
      ∀ f, result = .error f → (∃ e, f = .error (.guestMemory e)) ∧ Exhausted env := by
  induction addresses generalizing view t with
  | nil =>
    refine ⟨.ok ([],view),t.cell.world.host,t.cell.world.allocations,rfl,?_,by simp⟩
    rintro regions last returned
    cases returned
    simp
  | cons a rest ih =>
    simp only [stage,Prog.run_bind,Prog.run_get,stageRegion_plug]
    cases allocated : env.allocate t.cell.world.allocations view.regions a t.cell.device.blockLen with
    | error e => exact ⟨_,_,_,rfl,by simp,fun f failed => by cases failed; exact ⟨⟨e,rfl⟩,_,_,_,_,_,allocated⟩⟩
    | ok ptr =>
      obtain ⟨next,inserted,regions,after⟩ := room.insert lawful ptr t.cell.world.allocations
      obtain ⟨others,host,allocations,ran,good,bad⟩ := ih next
        (t.withMemory
          (fun p => if ptr ≤ p ∧ p < ptr + t.cell.device.blockLen then 0 else t.cell.world.host p)
          (t.cell.world.allocations + 1)) after
      simp only [if_true,inserted,Except.mapError,Prog.run_ofExcept,ran]
      cases others with
      | error f => exact ⟨_,_,_,rfl,by simp,fun f failed => by cases failed; exact bad _ rfl⟩
      | ok pair =>
        refine ⟨.ok (_::pair.1,pair.2),host,allocations,rfl,?_,by simp⟩
        rintro all last returned
        cases returned
        obtain ⟨starts,lengths,members⟩ := good pair.1 pair.2 rfl
        refine ⟨by simp [starts],?_,?_⟩
        · intro q member
          rcases List.mem_cons.mp member with rfl | inside
          · rfl
          · exact lengths q inside
        · intro q
          rw [members q,regions q,List.mem_cons]
          tauto

/-- What an unplug needs of the view: the table's region of every block. -/
structure Present (d : VirtioMem) (addresses : List Nat) (view : GuestMemoryMmap) : Prop where
  positive : 0 < d.blockSize
  distinct : addresses.Nodup
  found : ∀ a ∈ addresses, ∃ r, d.blocks[a]? = some r ∧ r ∈ view.regions ∧ r.start = a ∧
    r.len = d.blockSize

/-- Staging an unplug takes every region from the table and cannot fail. -/
theorem stage_unplug (env : Env) (lawful : env.vm.Lawful) (addresses : List Nat)
    (view : GuestMemoryMmap) (t : Txn M) (present : Present t.cell.device addresses view) :
    ∃ regions last, (stage env false addresses view).run t = (.ok (regions,last),t) ∧
      regions.map Region.start = addresses ∧
      (∀ r ∈ regions, t.cell.device.blocks[r.start]? = some r) ∧
      ∀ q, q ∈ last.regions ↔ q ∈ view.regions ∧ q ∉ regions := by
  induction addresses generalizing view with
  | nil => exact ⟨[],view,rfl,rfl,by simp,by simp⟩
  | cons a rest ih =>
    obtain ⟨r,found,inView,atStart,length⟩ := present.found a (by simp)
    have distinct := List.nodup_cons.mp present.distinct
    obtain ⟨next,removed⟩ := lawful.remove_succeeds view r inView
    rw [atStart,length] at removed
    have regions : ∀ q, q ∈ next.regions ↔ q ∈ view.regions ∧ q ≠ r := by
      obtain ⟨r',inView',atStart',length',members⟩ := lawful.remove_regions _ _ _ _ removed
      have same : r' = r := view.unique inView' inView (by omega) (by have := present.positive; omega)
        (by have := present.positive; omega)
      rwa [same] at members
    have presentAfter : Present t.cell.device rest next := by
      refine ⟨present.positive,distinct.2,?_⟩
      intro b member
      obtain ⟨q,foundq,inViewq,atStartq,lengthq⟩ := present.found b (by simp [member])
      refine ⟨q,foundq,(regions q).mpr ⟨inViewq,?_⟩,atStartq,lengthq⟩
      rintro rfl
      exact distinct.1 (by rwa [← atStart,atStartq])
    obtain ⟨others,last,ran,starts,sources,members⟩ := ih next presentAfter
    refine ⟨r::others,last,?_,by simp [atStart,starts],?_,?_⟩
    · simp only [stage,Prog.run_bind,Prog.run_get,stageRegion,Bool.false_eq_true,if_false,found,
        Prog.run_pure,removed,Except.mapError,Prog.run_ofExcept,ran]
    · intro q member
      rcases List.mem_cons.mp member with rfl | inside
      · rw [atStart,found]
      · exact sources q inside
    · intro q
      rw [members q,regions q,List.mem_cons]
      tauto

theorem commit_lookup (plug : Bool) (regions : List Region) (blocks : Std.TreeMap Nat Region) (a : Nat) :
    (commit plug (regions.map Region.start) regions blocks)[a]? =
      overlay Region.start plug regions (fun a => blocks[a]?) a := by
  induction regions generalizing blocks with
  | nil => rfl
  | cons r rest ih =>
    have step : commit plug ((r::rest).map Region.start) (r::rest) blocks =
        commit plug (rest.map Region.start) rest
          (if plug then blocks.insert r.start r else blocks.erase r.start) := rfl
    rw [step,ih,overlay_cons]
    congr 1
    funext b
    by_cases same : b = r.start
    · subst same
      cases plug <;> simp
    · have other : ¬r.start = b := fun h => same h.symm
      cases plug <;> simp [Std.TreeMap.getElem?_insert,Std.TreeMap.getElem?_erase,
        Function.update_of_ne same,other]

variable [Mapper M]

/-- One mapper call is atomic on error and leaves a successful call in the trace. -/
theorem operate_outcome {table : M → Nat → Option Region} (atomic : Mapper.Atomic table)
    (plug : Bool) (r : Region) (t : Txn M) :
    ∃ result mapper trace, (operate plug r).run t = (.ok result,t.withMapper mapper trace) ∧
      (result = .ok () → trace = t.cell.trace ++ [Txn.call plug r] ∧
        table mapper = Function.update (table t.mapper) r.start (if plug then some r else none)) ∧
      ∀ e, result = .error e → table mapper = table t.mapper ∧
        (table t.mapper r.start = (if plug then none else some r) → Refused table) := by
  cases plug with
  | true =>
    rcases called : Mapper.map t.mapper r with ⟨result,mapper⟩
    refine ⟨result,mapper,_,by simp only [operate,if_true,Txn.map,Prog.run_mk,called]; rfl,?_,?_⟩
    · rintro rfl
      exact ⟨rfl,atomic.map_ok _ _ _ called⟩
    · rintro e rfl
      refine ⟨atomic.map_error _ _ _ _ called,fun absent => ?_⟩
      exact ⟨t.mapper,r,e,Or.inl ⟨absent,by rw [called]⟩⟩
  | false =>
    rcases called : Mapper.unmap t.mapper r with ⟨result,mapper⟩
    refine ⟨result,mapper,_,by simp only [operate,Bool.false_eq_true,if_false,Txn.unmap,Prog.run_mk,called]; rfl,
      ?_,?_⟩
    · rintro rfl
      exact ⟨rfl,(atomic.unmap_ok _ _ _ called).2⟩
    · rintro e rfl
      refine ⟨atomic.unmap_error _ _ _ _ called,fun present => ?_⟩
      exact ⟨t.mapper,r,e,Or.inr ⟨present,by rw [called]⟩⟩

/-- What a rollback does beyond its mapper calls: nothing. -/
theorem rollback_frame {table : M → Nat → Option Region} (atomic : Mapper.Atomic table) (plug : Bool)
    (done : List Region) (t : Txn M) :
    ∃ result mapper trace, (rollback plug done).run t = (.ok result,t.withMapper mapper trace) := by
  induction done generalizing t with
  | nil => exact ⟨none,t.mapper,t.cell.trace,rfl⟩
  | cons r rest ih =>
    obtain ⟨undone,mapper,trace,called,_,_⟩ := operate_outcome atomic (!plug) r t
    obtain ⟨later,mapper',trace',rolled⟩ := ih (t.withMapper mapper trace)
    simp only [rollback,Prog.run_bind,called,rolled]
    cases undone with
    | error e => exact ⟨some e,mapper',trace',rfl⟩
    | ok _ => exact ⟨later,mapper',trace',rfl⟩

/-- A rollback that reports no error restores the table before the change. -/
theorem rollback_restores {table : M → Nat → Option Region} (atomic : Mapper.Atomic table)
    (plug : Bool) (done : List Region) (original : Nat → Option Region)
    (ready : Ready Region.start plug done.reverse original) (t : Txn M)
    (current : table t.mapper = overlay Region.start plug done.reverse original) :
    ∃ result mapper trace, (rollback plug done).run t = (.ok result,t.withMapper mapper trace) ∧
      (result = none → table mapper = original) := by
  induction done generalizing t with
  | nil => exact ⟨none,t.mapper,t.cell.trace,rfl,fun _ => current⟩
  | cons r rest ih =>
    rw [List.reverse_cons] at ready current
    obtain ⟨undone,mapper,trace,called,succeeded,_⟩ := operate_outcome atomic (!plug) r t
    cases undone with
    | error e =>
      obtain ⟨later,mapper',trace',rolled⟩ := rollback_frame atomic plug rest (t.withMapper mapper trace)
      refine ⟨some e,mapper',trace',?_,by simp⟩
      simp only [rollback,Prog.run_bind,called,rolled,Prog.run_pure]
      rfl
    | ok _ =>
      have restored : table mapper = overlay Region.start plug rest.reverse original := by
        rw [(succeeded rfl).2,current]
        exact ready.undo_last
      obtain ⟨later,mapper',trace',rolled,same⟩ :=
        ih ready.front (t.withMapper mapper trace) restored
      refine ⟨later,mapper',trace',?_,same⟩
      simp only [rollback,Prog.run_bind,called,rolled,Prog.run_pure]
      rfl

/-- The three ways a list of mapper operations can end. -/
theorem apply_outcome {table : M → Nat → Option Region} (atomic : Mapper.Atomic table) (plug : Bool)
    (done rest : List Region) (original : Nat → Option Region)
    (ready : Ready Region.start plug (done.reverse ++ rest) original) (t : Txn M)
    (current : table t.mapper = overlay Region.start plug done.reverse original) :
    ∃ mapper trace,
      ((apply plug done rest).run t = (.ok true,t.withMapper mapper trace) ∧
        table mapper = overlay Region.start plug (done.reverse ++ rest) original ∧
        trace = t.cell.trace ++ rest.map (Txn.call plug)) ∨
      ((apply plug done rest).run t = (.ok false,t.withMapper mapper trace) ∧
        table mapper = original ∧ Refused table) ∨
      (∃ source failed, (apply plug done rest).run t =
        (.error (.error (.rollbackFailed source failed)),t.withMapper mapper trace) ∧
        Refused table) := by
  induction rest generalizing done t with
  | nil =>
    exact ⟨t.mapper,t.cell.trace,Or.inl ⟨rfl,by simpa using current,by simp⟩⟩
  | cons r rest ih =>
    obtain ⟨result,mapper,trace,called,succeeded,failed⟩ := operate_outcome atomic plug r t
    have shifted : done.reverse ++ r::rest = (r::done).reverse ++ rest := by simp
    rw [shifted] at ready
    simp only [apply,Prog.run_bind,called]
    cases result with
    | ok _ =>
      have advanced : table mapper = overlay Region.start plug (r::done).reverse original := by
        rw [(succeeded rfl).2,current,List.reverse_cons,overlay_snoc]
      obtain ⟨mapper',trace',outcome⟩ := ih (r::done) ready (t.withMapper mapper trace) advanced
      refine ⟨mapper',trace',outcome.imp_left ?_⟩
      rintro ⟨ended,final,extended⟩
      refine ⟨ended,shifted ▸ final,?_⟩
      rw [extended]
      change trace ++ _ = _
      rw [(succeeded rfl).1]
      simp
    | error source =>
      obtain ⟨kept,refused⟩ := failed source rfl
      have front : Ready Region.start plug (done.reverse ++ [r]) original := by
        have part := ready.front
        rwa [List.reverse_cons] at part
      have entry : table t.mapper r.start = if plug then none else some r := by
        rw [current]
        exact front.last_entry
      obtain ⟨undone,mapper',trace',rolled,restored⟩ := rollback_restores atomic plug done original
        front.front (t.withMapper mapper trace) (by rw [← current]; exact kept)
      refine ⟨mapper',trace',Or.inr ?_⟩
      simp only [Prog.run_bind,rolled]
      cases undone with
      | none => exact Or.inl ⟨rfl,restored rfl,refused entry⟩
      | some e => exact Or.inr ⟨source,e,rfl,refused entry⟩

end VirtioMem
end WVmm.Devices
