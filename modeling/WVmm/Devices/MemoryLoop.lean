import WVmm.Devices.MemoryFailures
import WVmm.Devices.Records

/-! The records of plugged memory through a whole transaction: every request that
fails leaves them in agreement, and so does every error on the way to its answer,
unless a rollback failed. -/
namespace WVmm.Devices
open Lib.Effect Lib.Table

/-- A mapper call of a rollback was refused. -/
def Unrestored (f : Failure DeviceError) : Prop :=
  ∃ source failed, f = .error (.memory (.rollbackFailed source failed))

namespace VirtioMem

variable {M : Type} {env : Env} {table : M → Nat → Option Region} {base : List Region}
  {fixed : Nat → Option Region}

/-- What moves neither the device nor the sizes keeps the records. -/
theorem Book.steady {t u : Txn M} (book : Book table base fixed t) (world : World.Steady t.cell.world u.cell.world)
    (device : u.cell.device = t.cell.device) (mapper : table u.mapper = table t.mapper) :
    Book table base fixed u where
  shape := device ▸ book.shape
  keyed := device ▸ book.keyed
  viewed q := by
    rw [world.view,device]
    exact book.viewed q
  mapped a := by
    rw [mapper,device]
    exact book.mapped a
  beside := by
    rw [device]
    exact book.beside
  unclaimed := by
    rw [device]
    exact book.unclaimed
  plugged := by
    rw [device]
    exact book.plugged
  reported := by
    rw [world.plugged,device]
    exact book.reported
  blockUnit := by
    rw [world.block,device]
    exact book.blockUnit
  regionUnit := by
    rw [world.region,device]
    exact book.regionUnit
  multiple := by
    rcases world.target with same | accepted
    · rw [same,world.block]
      exact book.multiple
    · exact accepted.1
  within := by
    rcases world.target with same | accepted
    · rw [same,world.region]
      exact book.within
    · exact accepted.2

theorem onCell_book {ε α : Type} {broken : ε → Prop} {p : Prog (Cell VirtioMem) ε α} (calm : Always Cell.Calm p) :
    Guards (Book table base fixed) broken (Txn.onCell p) :=
  fun t book => .inl (book.steady (calm t.cell).1 (calm t.cell).2 rfl)

theorem onWorld_book {ε α : Type} {broken : ε → Prop} {p : Prog World ε α} (steadies : Steadies id p) :
    Guards (Book table base fixed) broken (Txn.onWorld p) :=
  fun t book => .inl (book.steady (steadies t.cell.world) rfl rfl)

theorem readRequest_later (room : Nat) (writable : Bool) (descriptors : List Descriptor) :
    Always (World.Later env) (readRequest env room writable descriptors) := by
  induction descriptors generalizing room writable with
  | nil => exact .pure _
  | cons d rest ih =>
    unfold readRequest
    split
    · exact ih _ _
    split
    · exact .fail _
    split
    · exact .fail _
    · exact .bind (World.readSlice_later _ _) (fun _ => .bind (ih _ _) (fun _ => .pure _))

theorem respond_steadies (response : List UInt8) (descriptors : List Descriptor) :
    Steadies id (respond env response descriptors) := by
  induction descriptors generalizing response with
  | nil => exact .pure _
  | cons d rest ih =>
    refine .bind (writeSlice_steadies _ _) (fun _ => ?_)
    split
    · exact .pure _
    · exact ih _

variable [Mapper M]

/-- Mapper operations end in an error only by a failed rollback. -/
theorem apply_error (plug : Bool) (done rest : List Region) (t : Txn M) {f : Failure MemoryError} {u : Txn M}
    (failed : (apply plug done rest).run t = (.error f,u)) : ∃ source e, f = .error (.rollbackFailed source e) := by
  induction rest generalizing done t with
  | nil => cases failed
  | cons r rest ih =>
    obtain ⟨result,mapper,called⟩ := operate_trace plug r t
    simp only [apply,Prog.run_bind,called] at failed
    cases result with
    | ok _ => exact ih (r::done) _ failed
    | error source =>
      obtain ⟨undone,calls,mapper',rolled,_⟩ := rollback_reports plug done
        (t.withMapper mapper (t.cell.trace ++ [Txn.logged plug r (.error source)]))
      simp only [Prog.run_bind,rolled] at failed
      cases undone with
      | none => cases failed
      | some e =>
        cases failed
        exact ⟨source,e,rfl⟩

/-- A staged change ends in an error only by a failed rollback. -/
theorem staged_error {plug : Bool} {addresses : List Nat} {t u : Txn M} {f : Failure MemoryError}
    {host : Host} {allocations : Nat} {staged : List Region × GuestMemoryMmap}
    (ran : (stage env plug addresses t.cell.world.view).run t = (.ok staged,t.withMemory host allocations))
    (failed : (change env addresses plug).run t = (.error f,u)) : ∃ source e, f = .error (.rollbackFailed source e) := by
  simp only [change,Prog.run_bind,Prog.run_get,ran] at failed
  rcases applied : (apply plug [] staged.1).run (t.withMemory host allocations) with ⟨result,v⟩
  rw [applied] at failed
  rcases result with g | done
  · cases failed
    exact apply_error plug [] staged.1 _ applied
  · cases done <;> cases failed

/-- A change that fails otherwise has made no mapper call. -/
theorem change_error (lawful : env.vm.Lawful) {plug : Bool} {addresses : List Nat} {t u : Txn M}
    (book : Book table base fixed t) (distinct : addresses.Nodup)
    (blocks : ∀ a ∈ addresses, t.cell.device.IsBlock a)
    (plugged : ∀ a ∈ addresses, t.cell.device.isPlugged a = !plug) {f : Failure MemoryError}
    (failed : (change env addresses plug).run t = (.error f,u)) :
    (∃ host allocations, u = t.withMemory host allocations) ∨ ∃ source e, f = .error (.rollbackFailed source e) := by
  cases plug with
  | true =>
    obtain ⟨result,host,allocations,ran,_,_⟩ := stage_plug env lawful addresses t.cell.world.view t
      (book.room distinct blocks plugged)
    cases result with
    | ok staged => exact .inr (staged_error ran failed)
    | error g =>
      simp only [change,Prog.run_bind,Prog.run_get,ran] at failed
      cases failed
      exact .inl ⟨host,allocations,rfl⟩
  | false =>
    obtain ⟨regions,last,ran,_⟩ := stage_unplug env lawful addresses t.cell.world.view t
      (book.present distinct plugged)
    exact .inr (@staged_error _ _ _ false addresses t u f t.cell.world.host t.cell.world.allocations _ ran failed)

/-- A request keeps the records in agreement unless its rollback failed. -/
theorem request_guards (lawful : env.vm.Lawful) (atomic : Mapper.Atomic table) (req : List UInt8)
    (pinned : List (Nat × Nat)) :
    Guards (Book table base fixed) (fun f => ∃ source e, f = .error (.rollbackFailed source e))
      (request env req pinned) := by
  intro t book
  rcases ran : (request env req pinned).run t with ⟨result,u⟩
  cases result with
  | ok answer => exact .inl (request_book lawful atomic book req pinned answer u ran)
  | error f =>
    cases decided : verdict t.cell.device t.cell.world.control.requestedSizeMib pinned (Request.decode req) with
    | inl answer =>
      rw [request_run,decided] at ran
      cases ran
    | inr addresses =>
      have admitted := verdict_admits decided
      rcases change_error lawful book (admitted.distinct book.shape) (admitted.blocks book.shape book.keyed)
        admitted.plugged (request_error decided ran) with ⟨host,allocations,rfl⟩ | lost
      · exact .inl {book with}
      · exact .inr ⟨f,rfl,lost⟩

theorem serve_guards (lawful : env.vm.Lawful) (atomic : Mapper.Atomic table) (pinned : List (Nat × Nat))
    (chain : Chain) : Guards (Book table base fixed) Unrestored (serve env pinned chain) := by
  refine .bind (.require _ _) (fun _ => .bind (onWorld_book (.ofLater (readRequest_later _ _ _))) (fun req => ?_))
  refine .bind (.mapError (request_guards lawful atomic req _) ?_) (fun answer => ?_)
  · rintro f ⟨source,e,rfl⟩
    exact ⟨source,e,rfl⟩
  · exact .bind (onWorld_book (respond_steadies _ _)) (fun _ => onCell_book (Queues.complete_calm _ _ _))

/-- Serving every chain there is keeps the records in agreement unless a rollback failed. -/
theorem process_guards (lawful : env.vm.Lawful) (atomic : Mapper.Atomic table) (pinned : List (Nat × Nat)) :
    Guards (Book table base fixed : Txn M → Prop) Unrestored (process env pinned) := by
  unfold process
  generalize 128 = budget
  induction budget with
  | zero => exact .pure _
  | succ budget ih =>
    refine .bind (onCell_book (Queues.pop_calm 0)) (fun taken => ?_)
    split
    · exact .pure _
    · exact .bind (serve_guards lawful atomic pinned _) (fun _ => ih)

end VirtioMem
end WVmm.Devices
