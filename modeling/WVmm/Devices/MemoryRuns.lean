import WVmm.Devices.MemoryBook
import WVmm.Reference

/-! Runs of a virtio-mem device: what its requests, the host's targets, the
synchronisation with them and resets can reach, under any schedule of mapper
failures. -/
namespace WVmm.Devices
open Lib.Effect Lib.Table

namespace VirtioMem

theorem isPowerOfTwo_iff (n : Nat) : isPowerOfTwo n = true ↔ ∃ k, n = 2^k := by
  constructor
  · intro power
    exact ⟨n.log2,by simpa [isPowerOfTwo] using power⟩
  · rintro ⟨k,rfl⟩
    simp [isPowerOfTwo,Nat.log2_two_pow]

theorem new_accepts {regionSizeMib blockSizeMib : Nat} {d : VirtioMem} {status : MemoryStatus}
    (made : VirtioMem.new regionSizeMib blockSizeMib = .ok (d,status)) :
    (∃ k, blockSizeMib = 2^k) ∧ MIB * regionSizeMib < 2^64 ∧
      MIB * regionSizeMib % max HOTPLUG_BLOCK_SIZE (MIB * blockSizeMib) = 0 ∧
      d = ⟨0,MIB * regionSizeMib,MIB * blockSizeMib,MIB * blockSizeMib,0,0,0,∅⟩ ∧
      status = MemoryStatus.new regionSizeMib blockSizeMib := by
  unfold VirtioMem.new at made
  split at made
  · cases made
  · rename_i power
    obtain ⟨blockSize,sized,made⟩ := bind_eq_ok.mp made
    obtain ⟨capacity,measured,made⟩ := bind_eq_ok.mp made
    obtain ⟨rfl,_⟩ := mibBytes_ok sized
    obtain ⟨rfl,bounded⟩ := mibBytes_ok measured
    dsimp only at made
    split at made
    · cases made
    · rename_i fits
      rw [not_or,not_not] at fits
      have pair := Except.ok.inj made
      refine ⟨(isPowerOfTwo_iff _).mp (by simpa using power),bounded,fits.2,?_,?_⟩
      · exact (congrArg Prod.fst pair).symm
      · exact (congrArg Prod.snd pair).symm

theorem attachAt_accepts {d d' : VirtioMem} {status : MemoryStatus} {start : Nat}
    (attached : d.attachAt status start = .ok d') :
    start % d.alignment = 0 ∧ start + d.capacity < 2^64 ∧
      d' = {d with start := start, requested := MIB * status.requestedSizeMib} := by
  unfold attachAt at attached
  split at attached
  · cases attached
  · rename_i aligned
    split at attached
    · cases attached
    · rename_i bounded
      obtain ⟨requested,computed,rfl⟩ := map_eq_ok.mp attached
      obtain ⟨rfl,_⟩ := mibBytes_ok computed
      rw [not_not] at aligned
      rw [Option.isNone_iff_eq_none] at bounded
      obtain ⟨stop,sum⟩ := Option.ne_none_iff_exists'.mp bounded
      exact ⟨aligned,(checkedAdd_eq_some.mp sum).1,rfl⟩

/-- A power of two of MiB divides the alignment of the region. -/
theorem block_dvd_alignment (k : Nat) : MIB * 2^k ∣ max HOTPLUG_BLOCK_SIZE (MIB * 2^k) := by
  rcases Nat.le_total HOTPLUG_BLOCK_SIZE (MIB * 2^k) with small | large
  · exact (max_eq_right small).symm ▸ Nat.dvd_refl _
  · rw [max_eq_left large]
    have power : k ≤ 7 := by
      by_contra more
      have := Nat.pow_le_pow_right (by decide : 0 < 2) (by omega : 8 ≤ k)
      have := Nat.mul_le_mul_left MIB this
      simp only [HOTPLUG_BLOCK_SIZE,MIB] at *
      omega
    have split : HOTPLUG_BLOCK_SIZE = MIB * 2^7 := by decide
    rw [split]
    exact Nat.mul_dvd_mul_left _ (Nat.pow_dvd_pow 2 power)

section Runs
variable {M : Type} {env : Env} {table : M → Nat → Option Region}

/-- A device as `new`, earlier targets of the host and `attachAt` leave it, with
its region free in the view and in the mappings. -/
structure Attached (table : M → Nat → Option Region) (t : Txn M) : Prop where
  made : ∃ (regionSizeMib blockSizeMib : Nat) (targets : List Nat) (d : VirtioMem)
      (status : MemoryStatus),
    VirtioMem.new regionSizeMib blockSizeMib = .ok (d,status) ∧
    t.cell.world.control = targets.foldl MemoryStatus.afterRequest status ∧
    d.attachAt t.cell.world.control t.cell.device.start = .ok t.cell.device
  beside : ∀ q ∈ t.cell.world.view.regions, q.start + q.len ≤ t.cell.device.start ∨
    t.cell.device.start + t.cell.device.capacity ≤ q.start
  unclaimed : ∀ a, t.cell.device.start ≤ a → a < t.cell.device.start + t.cell.device.capacity →
    table t.mapper a = none

/-- Host targets before the device is attached. -/
theorem targets_accepted (targets : List Nat) (status : MemoryStatus)
    (multiple : status.blockSizeMib ∣ status.requestedSizeMib)
    (within : status.requestedSizeMib ≤ status.regionSizeMib) :
    ∃ n, targets.foldl MemoryStatus.afterRequest status = {status with requestedSizeMib := n} ∧
      status.blockSizeMib ∣ n ∧ n ≤ status.regionSizeMib := by
  induction targets generalizing status with
  | nil => exact ⟨status.requestedSizeMib,rfl,multiple,within⟩
  | cons first rest ih =>
    rw [List.foldl_cons]
    rcases status.afterRequest_cases first with same | ⟨changed,multiple,within,_⟩
    · rw [same]
      exact ih status ‹_› ‹_›
    · rw [changed]
      exact ih _ multiple within

theorem Attached.book {t : Txn M} (attached : Attached table t) :
    Book table t.cell.world.view.regions (table t.mapper) t := by
  obtain ⟨regionSizeMib,blockSizeMib,targets,d,status,made,controlled,attachedAt⟩ := attached.made
  obtain ⟨⟨k,rfl⟩,bounded,whole,rfl,rfl⟩ := new_accepts made
  obtain ⟨aligned,stop,placed⟩ := attachAt_accepts attachedAt
  obtain ⟨n,status,multiple,within⟩ := targets_accepted targets
    (MemoryStatus.new regionSizeMib (2^k)) (Nat.dvd_zero _) (Nat.zero_le _)
  rw [status] at controlled
  have empty : ∀ a : Nat, t.cell.device.blocks[a]? = none := by
    intro a
    rw [placed]
    exact Std.TreeMap.getElem?_emptyc
  exact {
    shape := by
      rw [placed]
      exact ⟨rfl,Nat.dvd_mul_right _ _,Nat.mul_pos (by decide) (Nat.two_pow_pos k),
        Nat.dvd_trans (block_dvd_alignment k) (Nat.dvd_of_mod_eq_zero whole),
        Nat.dvd_trans (block_dvd_alignment k) (Nat.dvd_of_mod_eq_zero aligned),stop⟩
    keyed := fun a r found => by rw [empty a] at found; cases found
    viewed := fun q => by simp [empty]
    mapped := fun a => by simp [empty]
    beside := attached.beside
    unclaimed := attached.unclaimed
    plugged := by rw [placed]; simp [count]
    reported := by rw [placed,controlled]; simp [MemoryStatus.new]
    blockUnit := by rw [placed,controlled]; rfl
    regionUnit := by rw [placed,controlled]; rfl
    multiple := by rw [controlled]; exact multiple
    within := by rw [controlled]; exact within }

def setRequested (requested : Nat) (t : Txn M) : Txn M :=
  {t with cell := {t.cell with world := {t.cell.world with
    control := t.cell.world.control.afterRequest requested}}}

theorem adopt_run {ε : Type} (requested : Nat) (c : Cell VirtioMem) :
    ∃ target generation, ((adopt requested : Prog (Cell VirtioMem) ε Bool).run c).2 = {c with
      device := {c.device with requested := target, generation := generation}} := by
  simp only [adopt,Prog.run_bind,Prog.run_get]
  split
  · exact ⟨c.device.requested,c.device.generation,rfl⟩
  · exact ⟨_,_,rfl⟩

/-- Synchronisation adopts a new target and keeps everything else. -/
theorem syncTarget_run {ε : Type} (ready : Bool) (t : Txn M) :
    ∃ requested generation,
      ((Txn.onCell (syncTarget ready) : Prog (Txn M) ε Bool).run t).2 = {t with cell := {t.cell with
        device := {t.cell.device with requested := requested, generation := generation}
        world := {t.cell.world with
          control := {t.cell.world.control with driverReady := ready}}}} := by
  simp only [Txn.onCell,Prog.run_zoom,syncTarget,Prog.run_bind,Prog.run_modify,Prog.run_get]
  obtain ⟨requested,generation,ran⟩ := @adopt_run ε
    (wrappingMul t.cell.world.control.requestedSizeMib MIB) {t.cell with
      world := {t.cell.world with control := {t.cell.world.control with driverReady := ready}}}
  exact ⟨requested,generation,by rw [ran]⟩

theorem Book.target {base : List Region} {fixed : Nat → Option Region} {t : Txn M}
    (book : Book table base fixed t) (requested : Nat) :
    Book table base fixed (setRequested requested t) := by
  unfold setRequested
  rcases t.cell.world.control.afterRequest_cases requested with same | ⟨changed,multiple,within,_⟩
  · rw [same]
    exact book
  · rw [changed]
    exact {book with multiple := multiple, within := within}

theorem Book.sync {base : List Region} {fixed : Nat → Option Region} {t : Txn M}
    (book : Book table base fixed t) (ready : Bool) :
    Book table base fixed ((Txn.onCell (syncTarget ready) : Prog (Txn M) Empty Bool).run t).2 := by
  obtain ⟨requested,generation,ran⟩ := @syncTarget_run M Empty ready t
  rw [ran]
  exact {book with
    shape := ⟨book.shape.len,book.shape.unit,book.shape.positive,book.shape.whole,
      book.shape.aligned,book.shape.bounded⟩ }

variable [Mapper M]

/-- What requests that return an answer, host targets, synchronisation and
resets can reach. -/
inductive Reached (env : Env) (first : Txn M) : Txn M → Prop
  | start : Reached env first first
  | request {t u : Txn M} (req : List UInt8) (pinned : List (Nat × Nat)) (answer : Nat × Nat)
      (before : Reached env first t) (ran : (VirtioMem.request env req pinned).run t = (.ok answer,u)) :
      Reached env first u
  | target {t : Txn M} (requested : Nat) (before : Reached env first t) :
      Reached env first (setRequested requested t)
  | sync {t : Txn M} (ready : Bool) (before : Reached env first t) :
      Reached env first ((Txn.onCell (syncTarget ready) : Prog (Txn M) Empty Bool).run t).2
  | reset {t : Txn M} (before : Reached env first t) :
      Reached env first ((Txn.onCell VirtioDevice.reset : Prog (Txn M) _ Unit).run t).2

/-- In every reached state the records agree. -/
theorem Reached.book (lawful : env.vm.Lawful) (atomic : Mapper.Atomic table) {first t : Txn M}
    (attached : Attached table first) (reached : Reached env first t) :
    Book table first.cell.world.view.regions (table first.mapper) t := by
  induction reached with
  | start => exact attached.book
  | request req pinned answer _ ran ih => exact request_book lawful atomic ih req pinned answer _ ran
  | target requested _ ih => exact ih.target requested
  | sync ready _ ih => exact ih.sync ready
  | reset _ ih => exact {ih with}

theorem Reached.geometry (lawful : env.vm.Lawful) (atomic : Mapper.Atomic table) {first t : Txn M}
    (attached : Attached table first) (reached : Reached env first t) :
    t.cell.device.start = first.cell.device.start ∧
      t.cell.device.capacity = first.cell.device.capacity ∧
      t.cell.device.blockSize = first.cell.device.blockSize := by
  induction reached with
  | start => exact ⟨rfl,rfl,rfl⟩
  | request req pinned answer before ran ih =>
    have outcome := request_outcome lawful atomic (before.book lawful atomic attached) req pinned
    rw [ran] at outcome
    cases outcome <;> exact ih
  | target requested _ ih => exact ih
  | @sync t ready before ih =>
    obtain ⟨requested,generation,ran⟩ := @syncTarget_run M Empty ready t
    rw [ran]
    exact ih
  | reset _ ih => exact ih

/-- Table, view, mappings and status as they belong together. -/
structure Agreement (table : M → Nat → Option Region) (first t : Txn M) : Prop where
  start : t.cell.device.start = first.cell.device.start
  capacity : t.cell.device.capacity = first.cell.device.capacity
  blockSize : t.cell.device.blockSize = first.cell.device.blockSize
  keys : ∀ a ∈ t.cell.device.blocks, t.cell.device.blockSize ∣ a ∧ t.cell.device.start ≤ a ∧
    a + t.cell.device.blockSize ≤ t.cell.device.start + t.cell.device.capacity
  viewed : ∀ q, q ∈ t.cell.world.view.regions ↔
    q ∈ first.cell.world.view.regions ∨ t.cell.device.blocks[q.start]? = some q
  separate : ∀ q ∈ first.cell.world.view.regions, t.cell.device.blocks[q.start]? ≠ some q
  mapped : ∀ a, t.cell.device.start ≤ a → a < t.cell.device.start + t.cell.device.capacity →
    table t.mapper a = t.cell.device.blocks[a]?
  unrelated : ∀ a, (a < t.cell.device.start ∨ t.cell.device.start + t.cell.device.capacity ≤ a) →
    table t.mapper a = table first.mapper a
  plugged : t.cell.device.plugged = t.cell.device.blocks.size * t.cell.device.blockSize
  bounded : t.cell.device.plugged ≤ t.cell.device.capacity
  reported : t.cell.world.control.pluggedSizeMib = t.cell.device.plugged / MIB
  multiple : t.cell.device.blockSize ∣ MIB * t.cell.world.control.requestedSizeMib
  within : MIB * t.cell.world.control.requestedSizeMib ≤ t.cell.device.capacity

/-- The device table, the guest view, the mappings and the shared status agree
in every reached state, whatever the mapper refused on the way. -/
theorem records_agree (lawful : env.vm.Lawful) (atomic : Mapper.Atomic table) {first t : Txn M}
    (attached : Attached table first) (reached : Reached env first t) : Agreement table first t := by
  have book := reached.book lawful atomic attached
  obtain ⟨start,capacity,blockSize⟩ := reached.geometry lawful atomic attached
  have positive := book.shape.positive
  refine ⟨start,capacity,blockSize,?_,book.viewed,?_,?_,?_,book.plugged,?_,book.reported,?_,?_⟩
  · intro a member
    obtain ⟨r,found⟩ := (isPlugged_iff _ _).mp (Std.TreeMap.mem_iff_contains.mp member)
    exact (book.keyed a r found).2.2
  · intro q fixedRegion found
    obtain ⟨_,length,_,low,high⟩ := book.keyed q.start q found
    have := book.beside q fixedRegion
    omega
  · intro a low high
    rw [book.mapped a,book.unclaimed a low high,Option.or_none]
  · intro a outside
    rw [book.mapped a]
    cases found : t.cell.device.blocks[a]? with
    | none => rfl
    | some r =>
      obtain ⟨_,_,_,low,high⟩ := book.keyed a r found
      omega
  · rw [book.plugged]
    exact count_bounded book.shape book.keyed
  · rw [← book.blockUnit]
    exact Nat.mul_dvd_mul_left _ book.multiple
  · rw [← book.regionUnit]
    exact Nat.mul_le_mul_left _ book.within

/-- A request that does not answer ACK leaves device, view and status as they
were, and the mappings too unless it returned an error. One that does has made
exactly one successful call for each block it lists. -/
theorem request_all_or_nothing (lawful : env.vm.Lawful) (atomic : Mapper.Atomic table)
    {base : List Region} {fixed : Nat → Option Region} {t u : Txn M} (book : Book table base fixed t)
    (req : List UInt8) (pinned : List (Nat × Nat)) (result : Except (Failure MemoryError) (Nat × Nat))
    (ran : (request env req pinned).run t = (result,u)) :
    (∀ p, result ≠ .error (.panic p)) ∧
    ((∀ state, result ≠ .ok (0,state)) →
      u.cell.device = t.cell.device ∧ u.cell.world.view = t.cell.world.view ∧
      u.cell.world.control = t.cell.world.control ∧
      ∀ answer, result = .ok answer → table u.mapper = table t.mapper) ∧
    (∀ state, result = .ok (0,state) → (Request.decode req).kind ≤ 2 →
      ∃ (addresses : List Nat) (regions : List Region), (Request.decode req).addresses t.cell.device = some addresses ∧
        addresses.Nodup ∧ regions.map Region.start = addresses ∧
        u.cell.trace = t.cell.trace ++ regions.map (Txn.call ((Request.decode req).kind == 0))) := by
  have outcome := request_outcome lawful atomic book req pinned
  rw [ran] at outcome
  cases outcome with
  | answered answer decided =>
    refine ⟨by simp,fun _ => ⟨rfl,rfl,rfl,fun _ _ => rfl⟩,?_⟩
    rintro state acknowledged changing
    cases acknowledged
    have := verdict_acknowledges decided
    omega
  | acknowledged addresses host allocations mapper trace regions view decided carried =>
    have admitted := verdict_admits decided
    refine ⟨by simp,fun refused => absurd rfl (refused 0),?_⟩
    intro state _ _
    exact ⟨addresses,regions,admitted.listed,admitted.distinct book.shape,carried.starts,carried.traced⟩
  | rolledBack host allocations mapper trace same =>
    exact ⟨by simp,fun _ => ⟨rfl,rfl,rfl,fun _ _ => same⟩,by simp⟩
  | failed e host allocations mapper trace cause =>
    exact ⟨by simp,fun _ => ⟨rfl,rfl,rfl,by simp⟩,by simp⟩

end Runs

/-- A device of 64 blocks of 2 MiB at 1 GiB, above 1 MiB of base memory, with a
target of four blocks. -/
def sampleCell : Cell VirtioMem where
  device := ⟨2^30,2^27,2^21,2^21,2^23,0,0,∅⟩
  queues := ⟨[],0,0⟩
  world := {
    view := ⟨[⟨0,2^20,0,0⟩],by simp⟩
    host := fun _ => 0
    ticks := 0
    allocations := 1
    paused := true
    control := {MemoryStatus.new 128 2 with requestedSizeMib := 8} }
  trace := []

def sample (refuses : Nat → Bool) : Txn (Reference.TableMapper refuses) := ⟨sampleCell,⟨[],0⟩⟩

theorem sample_attached (refuses : Nat → Bool) :
    Attached Reference.TableMapper.table (sample refuses) := by
  refine ⟨⟨128,2,[8],⟨0,2^27,2^21,2^21,0,0,0,∅⟩,MemoryStatus.new 128 2,rfl,rfl,?_⟩,?_,?_⟩
  · change attachAt _ sampleCell.world.control sampleCell.device.start = .ok sampleCell.device
    rw [attachAt,if_neg (by decide),if_neg (by decide)]
    rfl
  · intro q member
    rw [List.mem_singleton.mp member]
    exact Or.inl (by decide : 0 + 2^20 ≤ sampleCell.device.start)
  · intro a _ _
    rfl

def encode (kind addr count : Nat) : List UInt8 :=
  toLeBytes 2 kind ++ List.replicate 6 0 ++ toLeBytes 8 addr ++ toLeBytes 2 count ++ List.replicate 6 0

def plugTwo {refuses : Nat → Bool} (t : Txn (Reference.TableMapper refuses)) :
    Except (Failure MemoryError) (Nat × Nat) × Txn (Reference.TableMapper refuses) :=
  (request Reference.env (encode 0 (2^30) 2) []).run t

theorem plugTwo_acknowledged : (plugTwo (sample (fun _ => false))).1 = .ok (0,0) := rfl

theorem plugTwo_busy : (plugTwo (sample (fun n => n == 1))).1 = .ok (2,0) := rfl

/-- Two blocks are plugged, then the host asks for three. -/
theorem records_agree_after_plug :
    ∃ t, Reached Reference.env (sample (fun _ => false)) t ∧ t.cell.device.blocks.size = 2 ∧
      Agreement Reference.TableMapper.table (sample (fun _ => false)) t := by
  have ran : plugTwo (sample (fun _ => false)) = (.ok (0,0),(plugTwo (sample (fun _ => false))).2) :=
    Prod.ext plugTwo_acknowledged rfl
  have lowered := Reached.sync true (Reached.target 6 (Reached.request _ _ _ Reached.start ran))
  exact ⟨_,lowered,by decide,
    records_agree Reference.vmMemory_lawful Reference.TableMapper.atomic (sample_attached _) lowered⟩

/-- The second mapping is refused, and the first one is taken back. -/
theorem request_rolled_back :
    (plugTwo (sample (fun n => n == 1))).1 = .ok (2,0) ∧
      Reference.TableMapper.table (plugTwo (sample (fun n => n == 1))).2.mapper =
        Reference.TableMapper.table (sample (fun n => n == 1)).mapper := by
  refine ⟨plugTwo_busy,?_⟩
  have ran : plugTwo (sample (fun n => n == 1)) =
      (.ok (2,0),(plugTwo (sample (fun n => n == 1))).2) := Prod.ext plugTwo_busy rfl
  have outcome := request_all_or_nothing Reference.vmMemory_lawful Reference.TableMapper.atomic
    (sample_attached _).book _ _ _ ran
  exact (outcome.2.1 (by simp)).2.2.2 _ rfl

end VirtioMem
end WVmm.Devices
