import WVmm.World

/-! An implementation of vm-memory and virtio-queue that obeys the laws the
devices rely on. Concrete machines run on it. -/
namespace WVmm
namespace Reference

/-- The slices of a range, one for each region it crosses. -/
def slicesIn : List Region → Nat → Nat → Except Foreign (List VolatileSlice)
  | _, _, 0 => .ok []
  | [], _, _+1 => .error ⟨"invalid guest address"⟩
  | r::rest, a, n+1 =>
    if r.Holds a then
      let len := min (n + 1) (r.start + r.len - a)
      (slicesIn rest (a + len) (n + 1 - len)).map (⟨r.ptr + (a - r.start),len⟩::·)
    else slicesIn rest a (n + 1)

def getSlices (view : GuestMemoryMmap) (a n : Nat) : Except Foreign (List VolatileSlice) :=
  slicesIn view.regions a n

def readSlice (view : GuestMemoryMmap) (host : Host) (a n : Nat) : Except Foreign (List UInt8) :=
  (getSlices view a n).map (World.bytesAt host)

def storeIn : List Region → Host → Nat → List UInt8 → Except Foreign Unit × Host
  | _, host, _, [] => (.ok (),host)
  | [], host, _, _::_ => (.error ⟨"invalid guest address"⟩,host)
  | r::rest, host, a, b::raw =>
    if r.Holds a then
      let len := min (raw.length + 1) (r.start + r.len - a)
      storeIn rest (World.storeAt host (r.ptr + (a - r.start)) ((b::raw).take len)) (a + len)
        ((b::raw).drop len)
    else storeIn rest host a (b::raw)

def writeSlice (view : GuestMemoryMmap) (host : Host) (a : Nat) (raw : List UInt8) :
    Except Foreign Unit × Host :=
  storeIn view.regions host a raw

def place (r : Region) : List Region → List Region
  | [] => [r]
  | q::rest => if r.start + r.len ≤ q.start then r::q::rest else q::place r rest

theorem mem_place (r q : Region) (regions : List Region) :
    q ∈ place r regions ↔ q = r ∨ q ∈ regions := by
  induction regions with
  | nil => simp [place]
  | cons first rest ih =>
    unfold place
    split
    · simp
    · simp only [List.mem_cons,ih]
      tauto

theorem place_sorted (r : Region) (regions : List Region) (filled : 0 < r.len)
    (apart : ∀ q ∈ regions, ¬r.Overlaps q)
    (sorted : regions.Pairwise (fun r q => r.start + r.len ≤ q.start)) :
    (place r regions).Pairwise (fun r q => r.start + r.len ≤ q.start) := by
  induction regions with
  | nil => simp [place]
  | cons first rest ih =>
    obtain ⟨before,following⟩ := List.pairwise_cons.mp sorted
    unfold place
    split
    · rename_i fits
      refine List.pairwise_cons.mpr ⟨?_,sorted⟩
      intro q member
      rcases List.mem_cons.mp member with rfl | later
      · exact fits
      · have := before q later
        omega
    · rename_i misses
      refine List.pairwise_cons.mpr ⟨?_,ih (fun q later => apart q (by simp [later])) following⟩
      intro q member
      rcases (mem_place r q rest).mp member with rfl | later
      · have := apart first (by simp)
        simp only [Region.Overlaps] at this
        omega
      · exact before q later

def insertRegion (view : GuestMemoryMmap) (r : Region) : Except Foreign GuestMemoryMmap :=
  if free : 0 < r.len ∧ ∀ q ∈ view.regions, ¬r.Overlaps q then
    .ok ⟨place r view.regions,place_sorted r view.regions free.1 free.2 view.sorted⟩
  else .error ⟨"overlapping memory regions"⟩

def removeRegion (view : GuestMemoryMmap) (base size : Nat) : Except Foreign GuestMemoryMmap :=
  match view.regions.find? (fun r => r.start == base && r.len == size) with
  | none => .error ⟨"no such memory region"⟩
  | some r => .ok ⟨view.regions.filter (fun q => decide (q ≠ r)),view.sorted.filter _⟩

def vmMemory : VmMemory where
  getSlices := getSlices
  checkRange view a n := (getSlices view a n).isOk
  readSlice := readSlice
  writeSlice := writeSlice
  insertRegion := insertRegion
  removeRegion := removeRegion

theorem slicesIn_backs (regions : List Region) (a n : Nat) (ss : List VolatileSlice)
    (found : slicesIn regions a n = .ok ss) :
    List.Forall₂ (fun a p => ∃ r ∈ regions, r.Holds a ∧ p = r.ptr + (a - r.start))
      (List.range' a n) (ss.flatMap VolatileSlice.bytes) := by
  induction regions generalizing a n ss with
  | nil =>
    cases n with
    | zero => cases found; exact .nil
    | succ n => cases found
  | cons r rest ih =>
    have widen : ∀ a p, (∃ q ∈ rest, q.Holds a ∧ p = q.ptr + (a - q.start)) →
        ∃ q ∈ r::rest, q.Holds a ∧ p = q.ptr + (a - q.start) :=
      fun a p ⟨q,member,holds⟩ => ⟨q,List.mem_cons_of_mem _ member,holds⟩
    cases n with
    | zero => cases found; exact .nil
    | succ n =>
      simp only [slicesIn] at found
      split at found
      · rename_i inside
        cases later : slicesIn rest (a + min (n + 1) (r.start + r.len - a))
            (n + 1 - min (n + 1) (r.start + r.len - a)) with
        | error e => simp [later,Except.map] at found
        | ok others =>
          simp only [later,Except.map,Except.ok.injEq] at found
          subst found
          obtain ⟨low,high⟩ := inside
          have total : n + 1 = min (n + 1) (r.start + r.len - a) +
            (n + 1 - min (n + 1) (r.start + r.len - a)) := by omega
          rw [total,← List.range'_append_1,List.flatMap_cons,VolatileSlice.bytes]
          simp only [← total]
          refine List.rel_append ?_ ((ih _ _ _ later).imp widen)
          refine List.forall₂_iff_get.mpr ⟨by simp,?_⟩
          intro i left right
          simp only [List.length_range'] at left
          refine ⟨r,by simp,?_,?_⟩
          · simp only [List.get_eq_getElem,List.getElem_range',Region.Holds]
            omega
          · simp only [List.get_eq_getElem,List.getElem_range']
            omega
      · exact (ih a (n + 1) ss found).imp widen

theorem storeIn_writes (regions : List Region) (host : Host) (a : Nat) (raw : List UInt8) (p : Nat)
    (changed : (storeIn regions host a raw).2 p ≠ host p) :
    ∃ i < raw.length, ∃ r ∈ regions, r.Holds (a + i) ∧ p = r.ptr + (a + i - r.start) := by
  induction regions generalizing host a raw with
  | nil => cases raw <;> exact absurd rfl changed
  | cons r rest ih =>
    cases raw with
    | nil => exact absurd rfl changed
    | cons b raw =>
      simp only [storeIn] at changed
      split at changed
      · rename_i inside
        obtain ⟨low,high⟩ := inside
        set len := min (raw.length + 1) (r.start + r.len - a) with lenEq
        by_cases kept : (World.storeAt host (r.ptr + (a - r.start)) ((b::raw).take len)) p = host p
        · rw [← kept] at changed
          obtain ⟨i,less,q,member,holds,place⟩ := ih _ _ _ changed
          simp only [List.length_drop,List.length_cons] at less
          have shift : a + len + i = a + (len + i) := by omega
          rw [shift] at holds place
          exact ⟨len + i,by simp only [List.length_cons]; omega,q,List.mem_cons_of_mem _ member,holds,place⟩
        · simp only [World.storeAt,List.length_take,List.length_cons] at kept
          split at kept
          · rename_i range
            refine ⟨p - (r.ptr + (a - r.start)),by simp only [List.length_cons]; omega,r,by simp,?_,?_⟩
            · exact ⟨by omega,by omega⟩
            · omega
          · exact absurd rfl kept
      · obtain ⟨i,less,q,member,holds⟩ := ih _ _ _ changed
        exact ⟨i,less,q,List.mem_cons_of_mem _ member,holds⟩

theorem storeAt_store (host : Host) (ptr : Nat) (raw : List UInt8) :
    World.storeAt host ptr raw = Lib.Stores.store host (List.range' ptr raw.length) raw := by
  funext p
  unfold World.storeAt
  split
  · rename_i inside
    have here : p - ptr < raw.length := by omega
    have place : p - ptr < (List.range' ptr raw.length).length := by simpa using here
    have there : (List.range' ptr raw.length)[p - ptr] = p := by
      rw [List.getElem_range']
      omega
    have stored := Lib.Stores.store_get (h := host) List.nodup_range' place here
    rw [there] at stored
    rw [stored,List.getD_eq_getElem _ _ here]
  · rename_i outside
    refine (Lib.Stores.store_outside fun member => outside ?_).symm
    obtain ⟨i,less,rfl⟩ := List.mem_range'.mp member
    omega

/-- A store that succeeds goes to the places of the range, in order. -/
theorem storeIn_stores (regions : List Region) (host host' : Host) (a : Nat) (raw : List UInt8)
    (done : storeIn regions host a raw = (.ok (),host')) :
    ∃ places, List.Forall₂ (fun a p => ∃ r ∈ regions, r.Holds a ∧ p = r.ptr + (a - r.start))
      (List.range' a raw.length) places ∧ host' = Lib.Stores.store host places raw := by
  fun_induction storeIn regions host a raw with
  | case1 =>
    cases done
    exact ⟨[],.nil,rfl⟩
  | case2 => cases done
  | case3 r rest host a b raw holds len ih =>
    obtain ⟨low,high⟩ := holds
    have cut : len = min (raw.length + 1) (r.start + r.len - a) := rfl
    obtain ⟨places,backed,rfl⟩ := ih done
    have size : ((b::raw).take len).length = len := by
      rw [List.length_take,List.length_cons]
      omega
    have whole : (b::raw).length = len + ((b::raw).drop len).length := by
      rw [List.length_drop,List.length_cons]
      omega
    refine ⟨List.range' (r.ptr + (a - r.start)) len ++ places,?_,?_⟩
    · rw [whole,← List.range'_append_1]
      refine List.rel_append ?_ (backed.imp ?_)
      · refine List.forall₂_iff_get.mpr ⟨by simp,fun i left right => ?_⟩
        rw [List.length_range'] at left
        simp only [List.get_eq_getElem,List.getElem_range']
        exact ⟨r,List.mem_cons_self,⟨by omega,by omega⟩,by omega⟩
      · rintro a p ⟨q,member,found⟩
        exact ⟨q,List.mem_cons_of_mem r member,found⟩
    · rw [storeAt_store,size]
      conv_rhs => rw [← List.take_append_drop len (b::raw)]
      rw [Lib.Stores.store_append (by rw [List.length_range',size])]
  | case4 r rest host a b raw misses ih =>
    obtain ⟨places,backed,same⟩ := ih done
    refine ⟨places,backed.imp ?_,same⟩
    rintro a p ⟨q,member,found⟩
    exact ⟨q,List.mem_cons_of_mem r member,found⟩

theorem vmMemory_stores : vmMemory.Stores := fun view host address bytes host' done =>
  storeIn_stores view.regions host host' address bytes done

theorem vmMemory_lawful : vmMemory.Lawful where
  slices view a n ss found := slicesIn_backs view.regions a n ss found
  read view host a n raw found := by
    simp only [vmMemory,readSlice] at found
    cases slices : getSlices view a n with
    | error e => simp [slices,Except.map] at found
    | ok ss =>
      simp only [slices,Except.map,Except.ok.injEq] at found
      exact ⟨_,slicesIn_backs view.regions a n ss slices,found.symm⟩
  write view host a raw p changed := storeIn_writes view.regions host a raw p changed
  insert_succeeds view r filled free := ⟨_,by
    simp only [vmMemory,insertRegion]
    exact dif_pos ⟨filled,free⟩⟩
  insert_regions view r next inserted q := by
    simp only [vmMemory,insertRegion] at inserted
    split at inserted
    · cases inserted
      exact mem_place r q view.regions
    · cases inserted
  remove_succeeds view r member := by
    simp only [vmMemory,removeRegion]
    cases found : view.regions.find? (fun q => q.start == r.start && q.len == r.len) with
    | some q => exact ⟨_,rfl⟩
    | none =>
      have := List.find?_eq_none.mp found r member
      simp at this
  remove_regions view base size next removed := by
    simp only [vmMemory,removeRegion] at removed
    split at removed
    · cases removed
    · rename_i r found
      cases removed
      have meets := List.find?_some found
      simp only [Bool.and_eq_true,beq_iff_eq] at meets
      refine ⟨r,List.mem_of_find?_eq_some found,meets.1,meets.2,?_⟩
      intro q
      simp

/-- The end of each ring must be a guest address. -/
def isValid (q : Queue) (view : GuestMemoryMmap) : Bool :=
  q.ready && [q.descTable + 16 * q.size,q.availRing + 6 + 2 * q.size,q.usedRing + 6 + 8 * q.size].all
    (fun a => view.regions.any (fun r => decide (r.Holds a)))

def availIdx (q : Queue) (view : GuestMemoryMmap) (host : Host) : Except Foreign Nat :=
  (readSlice view host (q.availRing + 2) 2).map fromLeBytes

def next (q : Queue) (view : GuestMemoryMmap) (host : Host) : Except Foreign (Option Nat) × Queue :=
  match availIdx q view host with
  | .error e => (.error e,q)
  | .ok idx =>
    if idx = q.nextAvail then (.ok none,q)
    else match readSlice view host (q.availRing + 4 + 2 * (q.nextAvail % q.size)) 2 with
      | .error _ => (.ok none,q)
      | .ok raw => (.ok (some (fromLeBytes raw)),{q with nextAvail := (q.nextAvail + 1) % 65536})

/-- The element is written before the index; the queue counts it in between. -/
def addUsed (q : Queue) (view : GuestMemoryMmap) (host : Host) (head len : Nat) :
    Except Foreign Unit × Queue × Host :=
  if head ≥ q.size then (.error ⟨"invalid descriptor index"⟩,q,host)
  else match writeSlice view host (q.usedRing + 4 + 8 * (q.nextUsed % q.size))
      (toLeBytes 4 head ++ toLeBytes 4 len) with
    | (.error e,host) => (.error e,q,host)
    | (.ok (),host) =>
      let q' := {q with nextUsed := (q.nextUsed + 1) % 65536}
      let (r,host) := writeSlice view host (q.usedRing + 2) (toLeBytes 2 q'.nextUsed)
      (r,q',host)

def trySetSize (q : Queue) (n : Nat) : Except Foreign Unit × Queue :=
  if n ≤ q.maxSize ∧ 0 < n ∧ n.isPowerOfTwo then (.ok (),{q with size := n})
  else (.error ⟨"invalid queue size"⟩,q)

/-- A 64-bit address with one of its halves replaced, if that keeps it aligned. -/
def halves (alignment current : Nat) (low high : Option Nat) : Nat :=
  let a := high.getD (current / 2^32) * 2^32 + low.getD (current % 2^32)
  if a % alignment = 0 then a else current

def virtioQueue : VirtioQueue where
  new n := if 0 < n ∧ n ≤ 32768 ∧ n.isPowerOfTwo then some ⟨n,n,false,0,0,0,0,0⟩ else none
  isValid := isValid
  availIdx := availIdx
  next := next
  addUsed := addUsed
  trySetSize := trySetSize
  setDescTableAddress q low high := {q with descTable := halves 16 q.descTable low high}
  setAvailRingAddress q low high := {q with availRing := halves 2 q.availRing low high}
  setUsedRingAddress q low high := {q with usedRing := halves 4 q.usedRing low high}
  reset q := ⟨q.maxSize,q.maxSize,false,0,0,0,0,0⟩

theorem toLeBytes_length (width value : Nat) : (toLeBytes width value).length = width := by
  induction width generalizing value with
  | zero => rfl
  | succ width ih => simp [toLeBytes,ih]

/-- A used entry of a non-empty ring lies in the used ring, as does its index. -/
theorem addUsed_writes (q : Queue) (view : GuestMemoryMmap) (host : Host) (head len p : Nat)
    (changed : (addUsed q view host head len).2.2 p ≠ host p) :
    ∃ i < 6 + 8 * q.size, view.Backs (q.usedRing + i) p := by
  unfold addUsed at changed
  split at changed
  · exact absurd rfl changed
  · rename_i known
    have slot : q.nextUsed % q.size < q.size := Nat.mod_lt _ (by omega)
    have entry : ∀ h, (writeSlice view host (q.usedRing + 4 + 8 * (q.nextUsed % q.size))
        (toLeBytes 4 head ++ toLeBytes 4 len)).2 = h → h p ≠ host p →
        ∃ i < 6 + 8 * q.size, view.Backs (q.usedRing + i) p := by
      rintro h rfl moved
      obtain ⟨i,less,r,member,holds,place⟩ := storeIn_writes _ _ _ _ _ moved
      simp only [List.length_append,toLeBytes_length] at less
      have shift : q.usedRing + 4 + 8 * (q.nextUsed % q.size) + i =
          q.usedRing + (4 + 8 * (q.nextUsed % q.size) + i) := by omega
      rw [shift] at holds place
      exact ⟨_,by omega,r,member,holds,place⟩
    split at changed
    · rename_i h wrote
      exact entry h (by rw [wrote]) changed
    · rename_i h wrote
      by_cases moved : h p = host p
      · rw [← moved] at changed
        obtain ⟨i,less,r,member,holds,place⟩ := storeIn_writes _ _ _ _ _ changed
        simp only [toLeBytes_length] at less
        have shift : q.usedRing + 2 + i = q.usedRing + (2 + i) := by omega
        rw [shift] at holds place
        exact ⟨_,by omega,r,member,holds,place⟩
      · exact entry h (by rw [wrote]) moved

theorem virtioQueue_lawful : virtioQueue.Lawful where
  new_max n positive bounded power := if_pos ⟨positive,bounded,power⟩
  valid_ready q view valid := by
    simp only [virtioQueue,isValid,Bool.and_eq_true] at valid
    exact valid.1
  next_taken q view host head q' taken := by
    simp only [virtioQueue,next] at taken
    split at taken
    · cases taken
    · split at taken
      · cases taken
      · split at taken <;> cases taken
        rfl
  next_failed q view host r ended none := by
    simp only [virtioQueue,next] at ended ⊢
    cases found : availIdx q view host with
    | error e => rfl
    | ok idx =>
      simp only [found] at ended ⊢
      split
      · rfl
      · rename_i more
        simp only [if_neg more] at ended
        split
        · rfl
        · rename_i raw got
          simp only [got] at ended
          exact absurd ended.symm (none _)
  used_added q view host head len q' host' added := by
    simp only [virtioQueue,addUsed] at added
    split at added
    · cases added
    · split at added
      · cases added
      · exact (congrArg (fun r => r.2.1) added).symm
  used_queue q view host head len := by
    simp only [virtioQueue,addUsed]
    split
    · exact Or.inl rfl
    · split
      · exact Or.inl rfl
      · exact Or.inr rfl
  used_writes := addUsed_writes
  size_set q n q' set := by
    simp only [virtioQueue,trySetSize] at set
    split at set
    · rename_i fits
      cases set
      exact ⟨rfl,fits.2.1,fits.1,fits.2.2⟩
    · cases set
  size_refused q n e q' refused := by
    simp only [virtioQueue,trySetSize] at refused
    split at refused
    · cases refused
    · cases refused
      rfl
  descTable_set _ _ _ := rfl
  availRing_set _ _ _ := rfl
  usedRing_set _ _ _ := rfl
  reset_fresh _ := rfl

/-- A mapper over a list of mappings that refuses the calls of a schedule. -/
structure TableMapper (refuses : Nat → Bool) where
  mappings : List Region
  calls : Nat

namespace TableMapper

variable {refuses : Nat → Bool}

def table (m : TableMapper refuses) (a : Nat) : Option Region := m.mappings.find? (·.start == a)

instance : Mapper (TableMapper refuses) where
  map m r :=
    if refuses m.calls || (m.table r.start).isSome then (.error (.backend ⟨"map"⟩),⟨m.mappings,m.calls + 1⟩)
    else (.ok (),⟨r::m.mappings,m.calls + 1⟩)
  unmap m r :=
    if refuses m.calls || m.table r.start != some r then
      (.error (.backend ⟨"unmap"⟩),⟨m.mappings,m.calls + 1⟩)
    else (.ok (),⟨m.mappings.filter (fun q => q.start != r.start),m.calls + 1⟩)

theorem atomic : Mapper.Atomic (table : TableMapper refuses → Nat → Option Region) where
  map_ok m r m' mapped := by
    simp only [Mapper.map] at mapped
    split at mapped
    · cases mapped
    · cases mapped
      funext a
      by_cases same : a = r.start
      · simp [table,same]
      · have other : ¬r.start = a := fun h => same h.symm
        simp [table,Function.update_of_ne same,other]
  map_error m r e m' refused := by
    simp only [Mapper.map] at refused
    split at refused
    · cases refused
      rfl
    · cases refused
  unmap_ok m r m' unmapped := by
    simp only [Mapper.unmap] at unmapped
    split at unmapped
    · cases unmapped
    · rename_i granted
      simp only [Bool.or_eq_true,bne_iff_ne,not_or,not_not] at granted
      cases unmapped
      refine ⟨granted.2,?_⟩
      funext a
      by_cases same : a = r.start
      · simp [table,same,List.find?_filter]
      · rw [Function.update_of_ne same]
        simp only [table,List.find?_filter]
        congr 1
        funext q
        by_cases here : q.start = a
        · simp [here,same]
        · simp [here]
  unmap_error m r e m' refused := by
    simp only [Mapper.unmap] at refused
    split at refused
    · cases refused
      rfl
    · cases refused

theorem reliable : Mapper.Reliable (table : TableMapper (fun _ => false) → Nat → Option Region) where
  maps m r absent := by simp [Mapper.map,absent]
  unmaps m r present := by simp [Mapper.unmap,present]

end TableMapper

def allocate (_ : Nat) (live : List Region) (_ _ : Nat) : Except Foreign Nat :=
  .ok (live.foldl (fun top r => max top (r.ptr + r.len)) 0)

def page : GuestMemoryMmap := ⟨[⟨0,4096,0,0⟩],List.pairwise_singleton _ _⟩

def descriptorBytes (addr len flags next : Nat) : List UInt8 :=
  toLeBytes 8 addr ++ toLeBytes 4 len ++ toLeBytes 2 flags ++ toLeBytes 2 next

def memoryWith (bytes : List (Nat × List UInt8)) : Host :=
  bytes.foldr (fun b host => World.storeAt host b.1 b.2) (fun _ => 0)

/-- A machine whose guest and host are still. -/
def env : Env where
  vm := vmMemory
  vq := virtioQueue
  guest _ host := host
  target _ := none
  allocate := allocate

theorem env_vm_lawful : env.vm.Lawful := vmMemory_lawful

theorem env_vq_lawful : env.vq.Lawful := virtioQueue_lawful

theorem env_fresh : env.FreshAllocations := by
  intro n live addr len ptr allocated r member
  have top : ∀ (regions : List Region) (low : Nat),
      low ≤ regions.foldl (fun top r => max top (r.ptr + r.len)) low ∧
      ∀ r ∈ regions, r.ptr + r.len ≤ regions.foldl (fun top r => max top (r.ptr + r.len)) low := by
    intro regions
    induction regions with
    | nil => simp
    | cons first rest ih =>
      intro low
      obtain ⟨above,rest⟩ := ih (max low (first.ptr + first.len))
      simp only [List.foldl_cons,List.mem_cons]
      refine ⟨by omega,?_⟩
      rintro r (rfl | later)
      · omega
      · exact rest r later
  cases allocated
  exact Or.inr ((top live 0).2 r member)

end Reference
end WVmm
