import WVmm.Devices.MemoryRuns

/-! Which host failures a memory request survives. A mapper call that is refused
is undone and answered; a block that cannot be allocated ends the request with
an error before any mapper call. -/
namespace WVmm.Devices
open Lib.Effect Lib.Table

/-- A mapper call of a change that the host refused. -/
def Txn.refusal (plug : Bool) (r : Region) : Action := if plug then .map r none else .unmap r none

def Txn.logged (plug : Bool) (r : Region) : Except MemoryError Unit → Action
  | .ok () => Txn.call plug r
  | .error _ => Txn.refusal plug r

namespace VirtioMem

variable {M : Type} {env : Env}

/-- The host allocates every block of a list, one after the other, beside the
regions in use by then. -/
def Allocates (env : Env) (len : Nat) : Nat → GuestMemoryMmap → List Nat → Prop
  | _, _, [] => True
  | n, view, a::rest => ∃ ptr, env.allocate n view.regions a len = .ok ptr ∧
      ∀ next, env.vm.insertRegion view ⟨a,len,ptr,n⟩ = .ok next → Allocates env len (n + 1) next rest

/-- Staging a plug succeeds exactly if every allocation does. -/
theorem stage_allocates (lawful : env.vm.Lawful) (addresses : List Nat) (view : GuestMemoryMmap)
    (t : Txn M) (room : Room t.cell.device addresses view) :
    (∃ staged, ((stage env true addresses view).run t).1 = .ok staged) ↔
      Allocates env t.cell.device.blockLen t.cell.world.allocations view addresses := by
  induction addresses generalizing view t with
  | nil => exact ⟨fun _ => trivial,fun _ => ⟨([],view),rfl⟩⟩
  | cons a rest ih =>
    simp only [stage,Prog.run_bind,Prog.run_get,stageRegion_plug,Allocates]
    cases allocated : env.allocate t.cell.world.allocations view.regions a t.cell.device.blockLen with
    | error e => simp
    | ok ptr =>
      obtain ⟨next,inserted,_,after⟩ := room.insert lawful ptr t.cell.world.allocations
      have later := ih next (t.withMemory
        (fun p => if ptr ≤ p ∧ p < ptr + t.cell.device.blockLen then 0 else t.cell.world.host p)
        (t.cell.world.allocations + 1)) after
      simp only [if_true,inserted,Except.mapError,Prog.run_ofExcept,Except.ok.injEq,forall_eq',
        exists_eq_left']
      refine Iff.trans ?_ later
      rcases (stage env true rest next).run _ with ⟨staged,u⟩
      cases staged <;> simp

variable {table : M → Nat → Option Region} {base : List Region} {fixed : Nat → Option Region}

/-- Every change of admitted blocks that can be allocated is staged. -/
theorem stage_succeeds (lawful : env.vm.Lawful) {plug : Bool} {addresses : List Nat} {t : Txn M}
    (book : Book table base fixed t) (distinct : addresses.Nodup)
    (blocks : ∀ a ∈ addresses, t.cell.device.IsBlock a)
    (plugged : ∀ a ∈ addresses, t.cell.device.isPlugged a = !plug)
    (allocates : plug = true →
      Allocates env t.cell.device.blockLen t.cell.world.allocations t.cell.world.view addresses) :
    ∃ staged host allocations, (stage env plug addresses t.cell.world.view).run t =
      (.ok staged,t.withMemory host allocations) := by
  cases plug with
  | true =>
    have room := book.room distinct blocks plugged
    obtain ⟨result,host,allocations,ran,_,_⟩ := stage_plug env lawful addresses t.cell.world.view t room
    obtain ⟨staged,succeeded⟩ := (stage_allocates lawful addresses t.cell.world.view t room).mpr
      (allocates rfl)
    rw [ran] at succeeded
    exact ⟨staged,host,allocations,by rw [ran,show result = .ok staged from succeeded]⟩
  | false =>
    obtain ⟨regions,last,ran,_⟩ := stage_unplug env lawful addresses t.cell.world.view t
      (book.present distinct plugged)
    exact ⟨(regions,last),t.cell.world.host,t.cell.world.allocations,ran⟩

variable [Mapper M]

theorem operate_trace (plug : Bool) (r : Region) (t : Txn M) :
    ∃ result mapper, (operate plug r).run t =
      (.ok result,t.withMapper mapper (t.cell.trace ++ [Txn.logged plug r result])) := by
  cases plug with
  | true =>
    rcases called : Mapper.map t.mapper r with ⟨result,mapper⟩
    refine ⟨result,mapper,?_⟩
    simp only [operate,if_true,Txn.map,Prog.run_mk,called]
    cases result <;> rfl
  | false =>
    rcases called : Mapper.unmap t.mapper r with ⟨result,mapper⟩
    refine ⟨result,mapper,?_⟩
    simp only [operate,Bool.false_eq_true,if_false,Txn.unmap,Prog.run_mk,called]
    cases result <;> rfl

/-- A rollback that reports an error had one of its calls refused. -/
theorem rollback_reports (plug : Bool) (done : List Region) (t : Txn M) :
    ∃ failed calls mapper,
      (rollback plug done).run t = (.ok failed,t.withMapper mapper (t.cell.trace ++ calls)) ∧
      (failed.isSome → ∃ r, Txn.refusal (!plug) r ∈ calls) := by
  induction done generalizing t with
  | nil => exact ⟨none,[],t.mapper,by rw [List.append_nil]; rfl,by simp⟩
  | cons r rest ih =>
    obtain ⟨undone,mapper,called⟩ := operate_trace (!plug) r t
    obtain ⟨failed,calls,mapper',rolled,reported⟩ :=
      ih (t.withMapper mapper (t.cell.trace ++ [Txn.logged (!plug) r undone]))
    simp only [rollback,Prog.run_bind,called,rolled]
    cases undone with
    | error e =>
      refine ⟨some e,Txn.refusal (!plug) r::calls,mapper',?_,fun _ => ⟨r,List.mem_cons_self⟩⟩
      simp [Txn.withMapper,Txn.logged]
    | ok _ =>
      refine ⟨failed,Txn.call (!plug) r::calls,mapper',by simp [Txn.withMapper,Txn.logged],fun some => ?_⟩
      obtain ⟨q,member⟩ := reported some
      exact ⟨q,List.mem_cons_of_mem _ member⟩

/-- Mapper operations end in an error only if a rollback call was refused. -/
theorem apply_fails (plug : Bool) (done rest : List Region) (t : Txn M) (f : Failure MemoryError)
    (u : Txn M) (failed : (apply plug done rest).run t = (.error f,u)) :
    ∃ calls, u.cell.trace = t.cell.trace ++ calls ∧ ∃ r, Txn.refusal (!plug) r ∈ calls := by
  induction rest generalizing done t with
  | nil => cases failed
  | cons r rest ih =>
    obtain ⟨result,mapper,called⟩ := operate_trace plug r t
    simp only [apply,Prog.run_bind,called] at failed
    cases result with
    | ok _ =>
      obtain ⟨calls,grown,q,member⟩ := ih (r::done) _ failed
      refine ⟨Txn.call plug r::calls,?_,q,List.mem_cons_of_mem _ member⟩
      rw [grown]
      simp [Txn.withMapper,Txn.logged]
    | error source =>
      obtain ⟨undone,calls,mapper',rolled,reported⟩ := rollback_reports plug done
        (t.withMapper mapper (t.cell.trace ++ [Txn.logged plug r (.error source)]))
      simp only [Prog.run_bind,rolled] at failed
      cases undone with
      | none => cases failed
      | some e =>
        obtain ⟨q,member⟩ := reported rfl
        cases failed
        exact ⟨Txn.refusal plug r::calls,by simp [Txn.withMapper,Txn.logged],q,List.mem_cons_of_mem _ member⟩

/-- Some allocation of a change, or some mapper call made for it, failed. -/
def HostFailure (env : Env) (plug : Bool) (addresses : List Nat) (t : Txn M) (calls : List Action) : Prop :=
  (plug = true ∧ ¬Allocates env t.cell.device.blockLen t.cell.world.allocations t.cell.world.view addresses) ∨
    ∃ r, .map r none ∈ calls ∨ .unmap r none ∈ calls

/-- The contract of a change: an error only after a rollback call was refused,
and any other host failure is answered and leaves everything as it was. -/
structure Survives (env : Env) (table : M → Nat → Option Region) (plug : Bool) (addresses : List Nat)
    (t : Txn M) (result : Except (Failure MemoryError) (Nat × Nat)) (u : Txn M) : Prop where
  fatal : ∀ f, result = .error f →
    ∃ r, Txn.refusal (!plug) r ∈ u.cell.trace.drop t.cell.trace.length
  answered : HostFailure env plug addresses t (u.cell.trace.drop t.cell.trace.length) →
    (¬∃ r, Txn.refusal (!plug) r ∈ u.cell.trace.drop t.cell.trace.length) →
    (∃ code state, result = .ok (code,state) ∧ code ≠ 0) ∧ u.cell.device = t.cell.device ∧
      u.cell.world.view = t.cell.world.view ∧ u.cell.world.control = t.cell.world.control ∧
      table u.mapper = table t.mapper

/-- A staged change ends in an error only if a rollback call was refused. -/
theorem change_fails {plug : Bool} {addresses : List Nat} {t u : Txn M} {f : Failure MemoryError}
    (host : Host) (allocations : Nat) {staged : List Region × GuestMemoryMmap}
    (ran : (stage env plug addresses t.cell.world.view).run t =
      (.ok staged,t.withMemory host allocations))
    (failed : (change env addresses plug).run t = (.error f,u)) :
    ∃ r, Txn.refusal (!plug) r ∈ u.cell.trace.drop t.cell.trace.length := by
  simp only [change,Prog.run_bind,Prog.run_get,ran] at failed
  rcases applied : (apply plug [] staged.1).run (t.withMemory host allocations) with ⟨result,v⟩
  rw [applied] at failed
  rcases result with g | done
  · obtain ⟨calls,grown,r,member⟩ := apply_fails plug [] staged.1 _ g v applied
    cases failed
    rw [grown]
    refine ⟨r,?_⟩
    change _ ∈ (t.cell.trace ++ calls).drop t.cell.trace.length
    rwa [List.drop_left]
  · cases done <;> cases failed

/-- A block that cannot be allocated ends the change before any mapper call. -/
theorem change_exhausted (lawful : env.vm.Lawful) {addresses : List Nat} {t : Txn M}
    (book : Book table base fixed t) (distinct : addresses.Nodup)
    (blocks : ∀ a ∈ addresses, t.cell.device.IsBlock a)
    (plugged : ∀ a ∈ addresses, t.cell.device.isPlugged a = false)
    (exhausted : ¬Allocates env t.cell.device.blockLen t.cell.world.allocations t.cell.world.view addresses) :
    ∃ f u, (change env addresses true).run t = (.error f,u) ∧ u.cell.trace = t.cell.trace := by
  have room := book.room distinct blocks plugged
  obtain ⟨result,host,allocations,ran,_,_⟩ := stage_plug env lawful addresses t.cell.world.view t room
  cases result with
  | ok staged =>
    exact absurd ((stage_allocates lawful addresses t.cell.world.view t room).mp
      ⟨staged,by rw [ran]⟩) exhausted
  | error f =>
    refine ⟨f,t.withMemory host allocations,?_,rfl⟩
    simp only [change,Prog.run_bind,Prog.run_get,ran]

theorem request_error {req : List UInt8} {pinned : List (Nat × Nat)} {addresses : List Nat} {t u : Txn M}
    {f : Failure MemoryError}
    (accepted : verdict t.cell.device t.cell.world.control.requestedSizeMib pinned
      (Request.decode req) = .inr addresses)
    (failed : (request env req pinned).run t = (.error f,u)) :
    (change env addresses ((Request.decode req).kind == 0)).run t = (.error f,u) := by
  rw [request_run,accepted] at failed
  rcases ran : (change env addresses ((Request.decode req).kind == 0)).run t with ⟨result,v⟩
  simp only [ran] at failed
  rcases result with g | done
  · cases failed
    rfl
  · cases done <;> cases failed

/-- A request that the protocol checks accept keeps the contract exactly if none
of its blocks fails to be allocated. -/
theorem request_survives_iff (lawful : env.vm.Lawful) (atomic : Mapper.Atomic table) {t : Txn M}
    (book : Book table base fixed t) (req : List UInt8) (pinned : List (Nat × Nat))
    (addresses : List Nat)
    (accepted : verdict t.cell.device t.cell.world.control.requestedSizeMib pinned
      (Request.decode req) = .inr addresses) :
    Survives env table ((Request.decode req).kind == 0) addresses t
        ((request env req pinned).run t).1 ((request env req pinned).run t).2 ↔
      ((Request.decode req).kind = 0 →
        Allocates env t.cell.device.blockLen t.cell.world.allocations t.cell.world.view addresses) := by
  have admitted := verdict_admits accepted
  have distinct := admitted.distinct book.shape
  have blocks := admitted.blocks book.shape book.keyed
  constructor
  · intro survives plug
    by_contra exhausted
    have plugged : ∀ a ∈ addresses, t.cell.device.isPlugged a = false := by
      simpa [plug] using admitted.plugged
    obtain ⟨f,u,failed,same⟩ := change_exhausted lawful book distinct blocks plugged exhausted
    have ran : (request env req pinned).run t = (.error f,u) := by
      rw [request_run,accepted]
      simp only [plug,beq_self_eq_true,failed]
    rw [ran] at survives
    obtain ⟨r,refused⟩ := survives.fatal f rfl
    rw [same,List.drop_length] at refused
    cases refused
  · intro allocates
    obtain ⟨staged,host,allocations,ran⟩ := stage_succeeds lawful book distinct blocks admitted.plugged
      (fun plug => allocates (by simpa using plug))
    have outcome := request_outcome lawful atomic book req pinned
    rcases asked : (request env req pinned).run t with ⟨result,u⟩
    rw [asked] at outcome
    cases outcome with
    | answered answer decided =>
      rw [decided] at accepted
      cases accepted
    | acknowledged listed host allocations mapper trace regions view decided carried =>
      refine ⟨by simp,?_⟩
      rintro (⟨plug,exhausted⟩ | ⟨r,refused⟩) _
      · exact absurd (allocates (by simpa using plug)) exhausted
      · change _ ∈ trace.drop t.cell.trace.length ∨ _ ∈ trace.drop t.cell.trace.length at refused
        rw [carried.traced,List.drop_left] at refused
        simp only [List.mem_map] at refused
        rcases refused with ⟨q,_,same⟩ | ⟨q,_,same⟩ <;> unfold Txn.call at same <;> split at same <;>
          cases same
    | rolledBack host allocations mapper trace same =>
      exact ⟨by simp,fun _ _ => ⟨⟨2,0,rfl,by simp⟩,rfl,rfl,rfl,same⟩⟩
    | failed e host allocations mapper trace cause =>
      have refused := change_fails _ _ ran (request_error accepted asked)
      exact ⟨fun _ _ => refused,fun _ none => absurd refused none⟩

/-- A host that has no memory left for a second block. -/
def scarce : Env := {Reference.env with
  allocate := fun n live addr len => if n = 2 then .error ⟨"out of memory"⟩
    else Reference.allocate n live addr len }

/-- With room for two blocks, PLUG of two blocks keeps the contract. -/
theorem plugTwo_survives :
    Survives Reference.env Reference.TableMapper.table true [2^30,2^30 + 2^21]
      (sample (fun n => n == 1)) (plugTwo (sample (fun n => n == 1))).1
      (plugTwo (sample (fun n => n == 1))).2 := by
  have kind : (Request.decode (encode 0 (2^30) 2)).kind = 0 := rfl
  have accepted : verdict sampleCell.device sampleCell.world.control.requestedSizeMib []
      (Request.decode (encode 0 (2^30) 2)) = .inr [2^30,2^30 + 2^21] := rfl
  have allocates : Allocates Reference.env sampleCell.device.blockLen sampleCell.world.allocations
      sampleCell.world.view [2^30,2^30 + 2^21] :=
    ⟨_,rfl,fun _ _ => ⟨_,rfl,fun _ _ => trivial⟩⟩
  have survives := (@request_survives_iff _ Reference.env _ _ _ _ Reference.vmMemory_lawful
    Reference.TableMapper.atomic _ (sample_attached (fun n => n == 1)).book (encode 0 (2^30) 2) [] _
    accepted).mpr (fun _ => allocates)
  rwa [kind] at survives

/-- The second block cannot be allocated. No mapper call is made, so none of a
rollback was refused, and the request still ends in an error. -/
theorem second_block_fatal :
    Attached Reference.TableMapper.table (sample (fun _ => false)) ∧
      (∃ e, ((request scarce (encode 0 (2^30) 2) []).run (sample (fun _ => false))).1 =
        .error (.error (.guestMemory e))) ∧
      ¬Survives scarce Reference.TableMapper.table true [2^30,2^30 + 2^21] (sample (fun _ => false))
        ((request scarce (encode 0 (2^30) 2) []).run (sample (fun _ => false))).1
        ((request scarce (encode 0 (2^30) 2) []).run (sample (fun _ => false))).2 := by
  refine ⟨sample_attached _,⟨_,rfl⟩,?_⟩
  intro survives
  obtain ⟨r,refused⟩ := survives.fatal _ rfl
  cases refused

end VirtioMem
end WVmm.Devices
