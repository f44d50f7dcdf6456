import WVmm.Platform.Hvf
import WVmm.Lib.Runs

/-! The regions mapped into the hypervisor, keyed by guest address. The hypervisor
only receives host pointers, so the table owns each allocation until a successful
unmap. The overlap test looks at one entry; it misses nothing because the table
keeps its ranges apart. -/
namespace WVmm.Platform.Hvf
open Lib.Ranges Lib.Runs Boot

/-- The calls that map guest memory, with their return codes, and what is asked of
the host beside them. -/
class Hypervisor (H : Type) where
  pageSize : Nat
  ipaBits : H → Except PlatformError Nat
  map : H → Region → Int × H
  unmap : H → Nat → Nat → Int × H

inductive HostCall
  | map (region : Region)
  | unmap (address size : Nat)

def check (code : Int) (operation : String) : Except PlatformError Unit :=
  if code ≠ 0 then .error (.hypervisor operation code) else .ok ()

structure Vm (H : Type) where
  mappings : Std.TreeMap Nat Region
  host : H
  /-- The calls made on the hypervisor, in order. -/
  calls : List HostCall


def sameMmap (r q : Region) : Bool := r.ptr == q.ptr && r.alloc == q.alloc

namespace Vm

variable {H : Type}

/-- The last entry that starts below an end: `range(..end).next_back()`. -/
def lastBelow (table : Std.TreeMap Nat Region) (stop : Nat) : Option (Nat × Region) :=
  (table.toList.filter fun e => decide (e.1 < stop)).getLast?

section Operations
variable [Hypervisor H]

def hostMap (s : Vm H) (region : Region) : Except PlatformError Unit × Vm H :=
  let (code,host) := Hypervisor.map s.host region
  (check code "map guest RAM",{s with host := host, calls := s.calls ++ [.map region]})

def hostUnmap (s : Vm H) (address size : Nat) : Except PlatformError Unit × Vm H :=
  let (code,host) := Hypervisor.unmap s.host address size
  (check code "unmap guest RAM",{s with host := host, calls := s.calls ++ [.unmap address size]})

def tableMap (s : Vm H) (region : Region) : Except PlatformError Unit × Vm H :=
  match checkedAdd region.start region.len with
  | none => (.error (.regionOverflow region.start region.len),s)
  | some stop =>
    if (lastBelow s.mappings stop).any (fun e => decide (e.1 + e.2.len > region.start)) then
      (.error (.mappingOverlap region.start region.len),s)
    else match s.hostMap region with
      | (.error e,s) => (.error e,s)
      | (.ok (),s) => (.ok (),{s with mappings := s.mappings.insert region.start region})

/-- `Mappings::unmap`. The allocation is released only after `unmap` succeeds. -/
def tableUnmap (s : Vm H) (region : Region) : Except PlatformError Unit × Vm H :=
  match s.mappings[region.start]?.filter (fun r => r.len == region.len) with
  | none => (.error (.mappingNotFound region.start region.len),s)
  | some mapped =>
    -- Another wrapper around the same allocation is the same mapping.
    if !sameMmap mapped region then (.error (.mappingMismatch region.start region.len),s)
    else match s.hostUnmap region.start region.len with
      | (.error e,s) => (.error e,s)
      | (.ok (),s) => (.ok (),{s with mappings := s.mappings.erase region.start})

def mappable (s : Vm H) (region : Region) : Except PlatformError Unit :=
  let page := Hypervisor.pageSize H
  if ¬(region.ptr % page = 0 ∧ region.len % page = 0 ∧ region.start % page = 0) then .error .hvfHostPageAlignment
  else (Hypervisor.ipaBits s.host).bind fun bits => ofBoot (validateIpaRange region.start region.len bits)

def map (s : Vm H) (region : Region) : Except MemoryError Unit × Vm H :=
  match s.mappable region with
  | .error e => (.error (.mapping e),s)
  | .ok () => ((s.tableMap region).1.mapError .mapping,(s.tableMap region).2)

def unmap (s : Vm H) (region : Region) : Except MemoryError Unit × Vm H :=
  ((s.tableUnmap region).1.mapError .mapping,(s.tableUnmap region).2)

end Operations
end Vm

/-- Calls that fail change nothing; the others add and remove whole ranges, which
stand here with the host memory behind them. -/
structure Hypervisor.Atomic {H : Type} [Hypervisor H] (ranges : H → Set Region) : Prop where
  map_ok : ∀ h r h', Hypervisor.map h r = (0,h') → ranges h' = insert r (ranges h)
  map_error : ∀ h r code h', Hypervisor.map h r = (code,h') → code ≠ 0 → ranges h' = ranges h
  unmap_ok : ∀ h a n h', Hypervisor.unmap h a n = (0,h') → ranges h' = {r ∈ ranges h | ¬(r.start = a ∧ r.len = n)}
  unmap_error : ∀ h a n code h', Hypervisor.unmap h a n = (code,h') → code ≠ 0 → ranges h' = ranges h

def extent (r : Region) : Set Nat := Set.Ico r.start (r.start + r.len)

/-- A table of filled regions, each under its address and within the address space,
that lie apart. -/
structure Sound (table : Std.TreeMap Nat Region) : Prop where
  keyed : ∀ (k : Nat) (r : Region), table[k]? = some r → r.start = k
  filled : ∀ (k : Nat) (r : Region), table[k]? = some r → 0 < r.len
  fits : ∀ (k : Nat) (r : Region), table[k]? = some r → r.start + r.len < 2^64
  apart : ∀ (k l : Nat) (r q : Region), table[k]? = some r → table[l]? = some q → k ≠ l → Disjoint (extent r) (extent q)

namespace Vm

variable {table : Std.TreeMap Nat Region}

/-- The last entry below an end is an entry below it, and none is later. -/
theorem lastBelow_some {stop k : Nat} {r : Region} (found : lastBelow table stop = some (k,r)) :
    table[k]? = some r ∧ k < stop ∧ ∀ (l : Nat) (q : Region), table[l]? = some q → l < stop → l ≤ k := by
  obtain ⟨before,listed⟩ := List.getLast?_eq_some_iff.mp found
  have member : (k,r) ∈ table.toList.filter fun e => decide (e.1 < stop) := by
    rw [listed]
    exact List.mem_append_right _ List.mem_cons_self
  obtain ⟨entry,below⟩ := List.mem_filter.mp member
  refine ⟨Std.TreeMap.mem_toList_iff_getElem?_eq_some.mp entry,by simpa using below,?_⟩
  intro l q other early
  have inside : (l,q) ∈ table.toList.filter fun e => decide (e.1 < stop) :=
    List.mem_filter.mpr ⟨Std.TreeMap.mem_toList_iff_getElem?_eq_some.mpr other,by simpa using early⟩
  have ordered := (Std.TreeMap.ordered_keys_toList (t := table)).filter fun e => decide (e.1 < stop)
  rw [listed] at inside ordered
  rcases List.mem_append.mp inside with earlier | last
  · have less := (List.pairwise_append.mp ordered).2.2 _ earlier _ List.mem_cons_self
    exact Nat.le_of_lt (Nat.compare_eq_lt.mp less)
  · cases List.mem_singleton.mp last
    exact le_rfl

theorem lastBelow_none {stop : Nat} (found : lastBelow table stop = none) (l : Nat) (q : Region)
    (other : table[l]? = some q) : stop ≤ l := by
  by_contra early
  have none := List.getLast?_eq_none_iff.mp found
  have inside : (l,q) ∈ table.toList.filter fun e => decide (e.1 < stop) :=
    List.mem_filter.mpr ⟨Std.TreeMap.mem_toList_iff_getElem?_eq_some.mpr other,by simpa using early⟩
  rw [none] at inside
  cases inside

end Vm

theorem extent_meets {r q : Region} (first : 0 < r.len) (second : 0 < q.len) :
    ¬Disjoint (extent r) (extent q) ↔ r.start < q.start + q.len ∧ q.start < r.start + r.len :=
  (meet_iff (Nat.lt_add_of_pos_right first) (Nat.lt_add_of_pos_right second)).symm

namespace Sound

variable {table : Std.TreeMap Nat Region}

/-- Only the last entry below the end of a range is examined, yet an overlap with any
entry is found. -/
theorem overlap_iff (sound : Sound table) {region : Region} (filled : 0 < region.len) :
    ((Vm.lastBelow table (region.start + region.len)).any fun e => decide (e.1 + e.2.len > region.start)) = true ↔
      ∃ (k : Nat) (r : Region), table[k]? = some r ∧ ¬Disjoint (extent r) (extent region) := by
  have meets : ∀ (k : Nat) (r : Region), table[k]? = some r → (¬Disjoint (extent r) (extent region) ↔
      k < region.start + region.len ∧ region.start < k + r.len) := by
    intro k r entry
    rw [extent_meets (sound.filled k r entry) filled,sound.keyed k r entry]
  cases found : Vm.lastBelow table (region.start + region.len) with
  | none =>
    refine ⟨nofun,?_⟩
    rintro ⟨k,r,entry,met⟩
    have early := ((meets k r entry).mp met).1
    exact absurd early (not_lt.mpr (Vm.lastBelow_none found k r entry))
  | some last =>
    obtain ⟨member,below,latest⟩ := Vm.lastBelow_some found
    rw [Option.any_some,decide_eq_true_eq]
    have decided := @last_decides Nat _ region.start (region.start + region.len) (Nat × Region) (·.1)
      (fun e => e.1 + e.2.len) {e | table[e.1]? = some e.2}
      (fun e entry => Nat.lt_add_of_pos_right (sound.filled _ _ entry))
      (by
        intro e entry f other different
        have keys : e.1 ≠ f.1 := by
          intro same
          have values := entry.symm.trans ((congrArg (fun k => table[k]?) same).trans other)
          exact different (Prod.ext same (Option.some.inj values))
        have apart := sound.apart _ _ _ _ entry other keys
        rwa [extent,extent,sound.keyed _ _ entry,sound.keyed _ _ other] at apart)
      last member below (fun e entry early => latest e.1 e.2 entry early)
    refine decided.symm.trans ⟨?_,?_⟩
    · rintro ⟨e,entry,early,late⟩
      exact ⟨e.1,e.2,entry,(meets e.1 e.2 entry).mpr ⟨early,late⟩⟩
    · rintro ⟨k,r,entry,met⟩
      obtain ⟨early,late⟩ := (meets k r entry).mp met
      exact ⟨(k,r),entry,early,late⟩

theorem empty : Sound ∅ := by
  refine ⟨?_,?_,?_,?_⟩ <;> simp

/-- A range beside all others can be added. -/
theorem insert (sound : Sound table) {region : Region} (filled : 0 < region.len)
    (fits : region.start + region.len < 2^64)
    (beside : ∀ (k : Nat) (r : Region), table[k]? = some r → Disjoint (extent r) (extent region)) :
    Sound (table.insert region.start region) := by
  have origin : ∀ (k : Nat) (r : Region), (table.insert region.start region)[k]? = some r →
      (k = region.start ∧ r = region) ∨ (k ≠ region.start ∧ table[k]? = some r) := by
    intro k r entry
    rw [Std.TreeMap.getElem?_insert] at entry
    split at entry
    · rename_i same
      exact Or.inl ⟨(Nat.compare_eq_eq.mp same).symm,(Option.some.inj entry).symm⟩
    · rename_i other
      exact Or.inr ⟨fun same => other (Nat.compare_eq_eq.mpr same.symm),entry⟩
  refine ⟨?_,?_,?_,?_⟩
  · intro k r entry
    rcases origin k r entry with ⟨rfl,rfl⟩ | ⟨_,old⟩
    · rfl
    · exact sound.keyed k r old
  · intro k r entry
    rcases origin k r entry with ⟨_,rfl⟩ | ⟨_,old⟩
    · exact filled
    · exact sound.filled k r old
  · intro k r entry
    rcases origin k r entry with ⟨_,rfl⟩ | ⟨_,old⟩
    · exact fits
    · exact sound.fits k r old
  · intro k l r q entry other different
    rcases origin k r entry with ⟨rfl,rfl⟩ | ⟨_,old⟩
    · rcases origin l q other with ⟨rfl,_⟩ | ⟨_,old'⟩
      · exact absurd rfl different
      · exact (beside l q old').symm
    · rcases origin l q other with ⟨_,rfl⟩ | ⟨_,old'⟩
      · exact beside k r old
      · exact sound.apart k l r q old old' different

theorem erase (sound : Sound table) (a : Nat) : Sound (table.erase a) := by
  have kept : ∀ (k : Nat) (r : Region), (table.erase a)[k]? = some r → table[k]? = some r := by
    intro k r entry
    rw [Std.TreeMap.getElem?_erase] at entry
    split at entry
    · cases entry
    · exact entry
  exact ⟨fun k r entry => sound.keyed k r (kept k r entry),fun k r entry => sound.filled k r (kept k r entry),
    fun k r entry => sound.fits k r (kept k r entry),
    fun k l r q entry other => sound.apart k l r q (kept k r entry) (kept l q other)⟩

end Sound

namespace Vm

variable {H : Type} [Hypervisor H] {s : Vm H} {region : Region} {table : Std.TreeMap Nat Region}

/-- What a map does: it is refused before the hypervisor is asked, or the hypervisor
refuses it, or the table takes the region. -/
inductive Mapped (s : Vm H) (region : Region) : Except PlatformError Unit × Vm H → Prop
  | overflow (large : ¬region.start + region.len < 2^64) :
    Mapped s region (.error (.regionOverflow region.start region.len),s)
  | overlap (fits : region.start + region.len < 2^64) (met : ((lastBelow s.mappings (region.start + region.len)).any
      fun e => decide (e.1 + e.2.len > region.start)) = true) :
    Mapped s region (.error (.mappingOverlap region.start region.len),s)
  | failed (fits : region.start + region.len < 2^64) (beside : ((lastBelow s.mappings (region.start + region.len)).any
      fun e => decide (e.1 + e.2.len > region.start)) = false) (code : Int) (host : H)
      (called : Hypervisor.map s.host region = (code,host)) (bad : code ≠ 0) :
    Mapped s region (.error (.hypervisor "map guest RAM" code),
      {s with host := host, calls := s.calls ++ [.map region]})
  | mapped (fits : region.start + region.len < 2^64) (beside : ((lastBelow s.mappings (region.start + region.len)).any
      fun e => decide (e.1 + e.2.len > region.start)) = false) (host : H)
      (called : Hypervisor.map s.host region = (0,host)) :
    Mapped s region (.ok (),⟨s.mappings.insert region.start region,host,s.calls ++ [.map region]⟩)

theorem tableMap_cases (s : Vm H) (region : Region) : Mapped s region (s.tableMap region) := by
  unfold tableMap
  cases sum : checkedAdd region.start region.len with
  | none =>
    refine .overflow fun fits => ?_
    rw [checkedAdd,if_pos fits] at sum
    cases sum
  | some stop =>
    obtain ⟨fits,rfl⟩ := checkedAdd_eq_some.mp sum
    dsimp only
    split
    · rename_i met
      exact .overlap fits met
    · rename_i beside
      rw [Bool.not_eq_true] at beside
      unfold hostMap check
      generalize called : Hypervisor.map s.host region = answer
      obtain ⟨code,host⟩ := answer
      by_cases good : code = 0
      · subst good
        exact .mapped fits beside host called
      · dsimp only
        rw [if_pos good]
        exact .failed fits beside code host called good

/-- What an unmap does: the region is not the entry at its address, or the hypervisor
refuses to unmap it, or the entry goes. -/
inductive Unmapped (s : Vm H) (region : Region) : Except PlatformError Unit × Vm H → Prop
  | missing (other : ∀ (r : Region), s.mappings[region.start]? = some r → r.len ≠ region.len) :
    Unmapped s region (.error (.mappingNotFound region.start region.len),s)
  | mismatch (mapped : Region) (entry : s.mappings[region.start]? = some mapped) (len : mapped.len = region.len)
      (different : sameMmap mapped region = false) :
    Unmapped s region (.error (.mappingMismatch region.start region.len),s)
  | failed (mapped : Region) (entry : s.mappings[region.start]? = some mapped) (len : mapped.len = region.len)
      (same : sameMmap mapped region = true) (code : Int) (host : H)
      (called : Hypervisor.unmap s.host region.start region.len = (code,host)) (bad : code ≠ 0) :
    Unmapped s region (.error (.hypervisor "unmap guest RAM" code),
      {s with host := host, calls := s.calls ++ [.unmap region.start region.len]})
  | unmapped (mapped : Region) (entry : s.mappings[region.start]? = some mapped) (len : mapped.len = region.len)
      (same : sameMmap mapped region = true) (host : H)
      (called : Hypervisor.unmap s.host region.start region.len = (0,host)) :
    Unmapped s region (.ok (),⟨s.mappings.erase region.start,host,s.calls ++ [.unmap region.start region.len]⟩)

theorem tableUnmap_cases (s : Vm H) (region : Region) : Unmapped s region (s.tableUnmap region) := by
  unfold tableUnmap
  cases found : s.mappings[region.start]?.filter fun r => r.len == region.len with
  | none =>
    refine .missing fun r entry len => ?_
    rw [entry,Option.filter_some,if_pos (by simpa using len)] at found
    cases found
  | some mapped =>
    obtain ⟨entry,len⟩ := Option.filter_eq_some_iff.mp found
    rw [beq_iff_eq] at len
    dsimp only
    split
    · rename_i different
      exact .mismatch mapped entry len (by simpa using different)
    · rename_i same
      have same : sameMmap mapped region = true := by simpa using same
      unfold hostUnmap check
      generalize called : Hypervisor.unmap s.host region.start region.len = answer
      obtain ⟨code,host⟩ := answer
      by_cases good : code = 0
      · subst good
        exact .unmapped mapped entry len same host called
      · dsimp only
        rw [if_pos good]
        exact .failed mapped entry len same code host called good

/-- An entry with the address, the length and the allocation of a region is that region. -/
theorem entry_whole {mapped region : Region} (start : mapped.start = region.start)
    (entry : table[region.start]? = some mapped) (len : mapped.len = region.len)
    (same : sameMmap mapped region = true) : table[region.start]? = some region := by
  obtain ⟨ptr,alloc⟩ := Bool.and_eq_true_iff.mp same
  rw [beq_iff_eq] at ptr alloc
  cases mapped
  cases region
  cases start
  cases len
  cases ptr
  cases alloc
  exact entry

/-- The table is sound, and the hypervisor has mapped just its regions. -/
structure Kept (ranges : H → Set Region) (s : Vm H) : Prop where
  sound : Sound s.mappings
  mirrored : ranges s.host = {r | s.mappings[r.start]? = some r}

theorem tableMap_kept {ranges : H → Set Region} (atomic : Hypervisor.Atomic ranges) (kept : Kept ranges s)
    (filled : 0 < region.len) : Kept ranges (s.tableMap region).2 := by
  have outcome := tableMap_cases s region
  generalize s.tableMap region = ended at outcome ⊢
  cases outcome with
  | overflow large => exact kept
  | overlap fits met => exact kept
  | failed fits beside code host called bad =>
    exact ⟨kept.sound,(atomic.map_error _ _ _ _ called bad).trans kept.mirrored⟩
  | mapped fits beside host called =>
    have apart : ∀ (k : Nat) (r : Region), s.mappings[k]? = some r → Disjoint (extent r) (extent region) := by
      intro k r entry
      by_contra met
      have found := (kept.sound.overlap_iff filled).mpr ⟨k,r,entry,met⟩
      rw [beside] at found
      cases found
    have free : s.mappings[region.start]? = none := by
      by_contra taken
      obtain ⟨r,entry⟩ := Option.ne_none_iff_exists'.mp taken
      have here := kept.sound.keyed _ r entry
      have inside : region.start ∈ extent r :=
        ⟨here.le,here ▸ Nat.lt_add_of_pos_right (kept.sound.filled _ r entry)⟩
      have first : region.start ∈ extent region := ⟨le_rfl,Nat.lt_add_of_pos_right filled⟩
      exact Set.disjoint_left.mp (apart _ r entry) inside first
    refine ⟨kept.sound.insert filled fits apart,?_⟩
    rw [show ranges host = insert region (ranges s.host) from atomic.map_ok _ _ _ called,kept.mirrored]
    ext r
    rw [Set.mem_insert_iff,Set.mem_ofPred_eq,Set.mem_ofPred_eq,Std.TreeMap.getElem?_insert]
    by_cases here : region.start = r.start
    · rw [if_pos (Nat.compare_eq_eq.mpr here),← here,free]
      simp [eq_comm]
    · rw [if_neg (fun same => here (Nat.compare_eq_eq.mp same))]
      refine or_iff_right fun same => here (congrArg Region.start same).symm

theorem tableUnmap_kept {ranges : H → Set Region} (atomic : Hypervisor.Atomic ranges) (kept : Kept ranges s) :
    Kept ranges (s.tableUnmap region).2 := by
  have outcome := tableUnmap_cases s region
  generalize s.tableUnmap region = ended at outcome ⊢
  cases outcome with
  | missing other => exact kept
  | mismatch mapped entry len different => exact kept
  | failed mapped entry len same code host called bad =>
    exact ⟨kept.sound,(atomic.unmap_error _ _ _ _ _ called bad).trans kept.mirrored⟩
  | unmapped mapped entry len same host called =>
    refine ⟨kept.sound.erase _,?_⟩
    rw [show ranges host = _ from atomic.unmap_ok _ _ _ _ called,kept.mirrored]
    ext r
    rw [Set.mem_ofPred_eq,Set.mem_ofPred_eq,Set.mem_ofPred_eq,Std.TreeMap.getElem?_erase]
    by_cases here : region.start = r.start
    · rw [if_pos (Nat.compare_eq_eq.mpr here),← here,entry]
      refine iff_of_false ?_ nofun
      rintro ⟨found,other⟩
      exact other ⟨rfl,Option.some.inj found ▸ len⟩
    · rw [if_neg (fun same => here (Nat.compare_eq_eq.mp same))]
      exact and_iff_left fun gone => here gone.1.symm

inductive Op
  | map (region : Region)
  | unmap (region : Region)

def Op.target : Op → Region
  | .map region => region
  | .unmap region => region

def apply (s : Vm H) : Op → Except PlatformError Unit × Vm H
  | .map region => s.tableMap region
  | .unmap region => s.tableUnmap region

def Happens (s : Vm H) (op : Op) (t : Vm H) : Prop := 0 < op.target.len ∧ t = (s.apply op).2

theorem reaches_kept {ranges : H → Set Region} (atomic : Hypervisor.Atomic ranges) {t : Vm H} (kept : Kept ranges s)
    (reaches : Reaches Happens s t) : Kept ranges t := by
  refine reaches.invariant kept ?_
  rintro t op u kept ⟨filled,rfl⟩
  cases op with
  | map region => exact tableMap_kept atomic kept filled
  | unmap region => exact tableUnmap_kept atomic kept

/-- Along every run of maps and unmaps the regions of the table lie apart and are just
what the hypervisor has mapped. A map finds an overlap with any of them, an unmap
reaches the hypervisor only for one of them, and a call that fails leaves the table
alone. -/
theorem mappings_kept {ranges : H → Set Region} (atomic : Hypervisor.Atomic ranges) {t : Vm H}
    (fresh : s.mappings = ∅) (unmapped : ranges s.host = ∅) (reaches : Reaches Happens s t) :
    Sound t.mappings ∧ ranges t.host = {r | t.mappings[r.start]? = some r} ∧
    (∀ region, 0 < region.len →
      ((t.tableMap region).1 = .error (.mappingOverlap region.start region.len) ↔ region.start + region.len < 2^64 ∧
        ∃ (k : Nat) (r : Region), t.mappings[k]? = some r ∧ ¬Disjoint (extent r) (extent region))) ∧
    (∀ region, (t.tableUnmap region).2.calls ≠ t.calls →
      (t.tableUnmap region).2.calls = t.calls ++ [.unmap region.start region.len] ∧
        t.mappings[region.start]? = some region) ∧
    ∀ op e, (t.apply op).1 = .error e → (t.apply op).2.mappings = t.mappings := by
  have start : Kept ranges s := by
    refine ⟨fresh ▸ Sound.empty,?_⟩
    rw [unmapped,fresh]
    simp
  have kept := reaches_kept atomic start reaches
  refine ⟨kept.sound,kept.mirrored,?_,?_,?_⟩
  · intro region filled
    rw [← kept.sound.overlap_iff filled]
    have outcome := tableMap_cases t region
    generalize t.tableMap region = ended at outcome ⊢
    cases outcome with
    | overflow large => exact iff_of_false nofun fun found => large found.1
    | overlap fits met => exact iff_of_true rfl ⟨fits,met⟩
    | failed fits beside code host called bad =>
      refine iff_of_false nofun fun found => ?_
      rw [beside] at found
      cases found.2
    | mapped fits beside host called =>
      refine iff_of_false nofun fun found => ?_
      rw [beside] at found
      cases found.2
  · intro region
    have outcome := tableUnmap_cases t region
    generalize t.tableUnmap region = ended at outcome ⊢
    have whole : ∀ mapped : Region, t.mappings[region.start]? = some mapped → mapped.len = region.len →
        sameMmap mapped region = true → t.mappings[region.start]? = some region :=
      fun mapped entry => entry_whole (kept.sound.keyed _ mapped entry) entry
    cases outcome with
    | missing other => exact fun called => absurd rfl called
    | mismatch mapped entry len different => exact fun called => absurd rfl called
    | failed mapped entry len same code host called bad => exact fun _ => ⟨rfl,whole mapped entry len same⟩
    | unmapped mapped entry len same host called => exact fun _ => ⟨rfl,whole mapped entry len same⟩
  · intro op e failed
    cases op with
    | map region =>
      change (t.tableMap region).1 = _ at failed
      change (t.tableMap region).2.mappings = _
      have outcome := tableMap_cases t region
      generalize t.tableMap region = ended at outcome failed ⊢
      cases outcome with
      | mapped fits beside host called => cases failed
      | _ => rfl
    | unmap region =>
      change (t.tableUnmap region).1 = _ at failed
      change (t.tableUnmap region).2.mappings = _
      have outcome := tableUnmap_cases t region
      generalize t.tableUnmap region = ended at outcome failed ⊢
      cases outcome with
      | unmapped mapped entry len same host called => cases failed
      | _ => rfl

end Vm

/-- A hypervisor that refuses only a null pointer. -/
structure Willing where
  regions : List Region

instance : Hypervisor Willing where
  pageSize := 0x4000
  ipaBits _ := .ok 36
  map h r := if r.ptr = 0 then (5,h) else (0,⟨r :: h.regions⟩)
  unmap h a n := (0,⟨h.regions.filter fun r => !decide (r.start = a ∧ r.len = n)⟩)

theorem willing_atomic : Hypervisor.Atomic fun h : Willing => {r | r ∈ h.regions} := by
  refine ⟨?_,?_,?_,?_⟩
  · intro h r h' called
    simp only [Hypervisor.map] at called
    split at called
    · cases called
    · cases called
      ext q
      exact List.mem_cons
  · intro h r code h' called bad
    simp only [Hypervisor.map] at called
    split at called
    · cases called
      rfl
    · cases called
      exact absurd rfl bad
  · rintro h a n _ ⟨⟩
    ext q
    simpa using fun _ => imp_iff_not_or.symm
  · rintro h a n code _ ⟨⟩ bad
    exact absurd rfl bad

/-- After a map, one that the hypervisor refuses, and a map beside the first, a range
that reaches into the first overlaps. -/
theorem mappings_kept_touching : ∃ t : Vm Willing, Reaches Vm.Happens ⟨∅,⟨[]⟩,[]⟩ t ∧
    (t.tableMap ⟨0x13000,0x4000,7,3⟩).1 = .error (.mappingOverlap 0x13000 0x4000) := by
  let s : Vm Willing := ⟨∅,⟨[]⟩,[]⟩
  let first := (s.apply (.map ⟨0x10000,0x4000,5,1⟩)).2
  let second := (first.apply (.map ⟨0x20000,0x4000,0,2⟩)).2
  let third := (second.apply (.map ⟨0xc000,0x4000,6,2⟩)).2
  have reaches : Reaches Vm.Happens s third :=
    ((Reaches.refl.tail (.map ⟨0x10000,0x4000,5,1⟩) ⟨by decide,rfl⟩).tail (.map ⟨0x20000,0x4000,0,2⟩)
      ⟨by decide,rfl⟩).tail (.map ⟨0xc000,0x4000,6,2⟩) ⟨by decide,rfl⟩
  have kept := Vm.mappings_kept willing_atomic rfl (by simp [s]) reaches
  refine ⟨third,reaches,(kept.2.2.1 ⟨0x13000,0x4000,7,3⟩ (by decide)).mpr ⟨by decide,0x10000,⟨0x10000,0x4000,5,1⟩,?_,?_⟩⟩
  · decide +kernel
  · exact (extent_meets (by decide) (by decide)).mpr ⟨by decide,by decide⟩

section Contract
variable {H : Type} [Hypervisor H]

structure Hosted (H : Type) where
  vm : Vm H
  keyed : ∀ (k : Nat) (r : Region), vm.mappings[k]? = some r → r.start = k

theorem tableMap_keyed {s : Vm H} {region : Region}
    (keyed : ∀ (k : Nat) (r : Region), s.mappings[k]? = some r → r.start = k) (k : Nat) (r : Region)
    (entry : (s.tableMap region).2.mappings[k]? = some r) : r.start = k := by
  have outcome := Vm.tableMap_cases s region
  generalize s.tableMap region = ended at outcome entry
  cases outcome with
  | mapped fits beside host called =>
    simp only [Std.TreeMap.getElem?_insert] at entry
    split at entry
    · rename_i same
      exact Option.some.inj entry ▸ Nat.compare_eq_eq.mp same
    · exact keyed k r entry
  | _ => exact keyed k r entry

theorem tableUnmap_keyed {s : Vm H} {region : Region}
    (keyed : ∀ (k : Nat) (r : Region), s.mappings[k]? = some r → r.start = k) (k : Nat) (r : Region)
    (entry : (s.tableUnmap region).2.mappings[k]? = some r) : r.start = k := by
  have outcome := Vm.tableUnmap_cases s region
  generalize s.tableUnmap region = ended at outcome entry
  cases outcome with
  | unmapped mapped entry' len same host called =>
    simp only [Std.TreeMap.getElem?_erase] at entry
    split at entry
    · cases entry
    · exact keyed k r entry
  | _ => exact keyed k r entry

theorem map_keyed {s : Vm H} {region : Region}
    (keyed : ∀ (k : Nat) (r : Region), s.mappings[k]? = some r → r.start = k) (k : Nat) (r : Region)
    (entry : (s.map region).2.mappings[k]? = some r) : r.start = k := by
  unfold Vm.map at entry
  split at entry
  · exact keyed k r entry
  · exact tableMap_keyed keyed k r entry

instance : Mapper (Hosted H) where
  map m region := ((m.vm.map region).1,⟨(m.vm.map region).2,map_keyed m.keyed⟩)
  unmap m region := ((m.vm.unmap region).1,⟨(m.vm.unmap region).2,tableUnmap_keyed m.keyed⟩)

theorem map_table {s : Vm H} {region : Region} :
    ((s.map region).1 = .ok () → (s.map region).2.mappings = s.mappings.insert region.start region) ∧
    ∀ e, (s.map region).1 = .error e → (s.map region).2.mappings = s.mappings := by
  unfold Vm.map
  split
  · exact ⟨nofun,fun _ _ => rfl⟩
  · have outcome := Vm.tableMap_cases s region
    generalize s.tableMap region = ended at outcome ⊢
    cases outcome with
    | mapped fits beside host called => exact ⟨fun _ => rfl,fun e failed => by cases failed⟩
    | _ => exact ⟨fun ok => (by cases ok),fun _ _ => rfl⟩

theorem unmap_table {s : Vm H} {region : Region}
    (keyed : ∀ (k : Nat) (r : Region), s.mappings[k]? = some r → r.start = k) :
    ((s.unmap region).1 = .ok () →
      s.mappings[region.start]? = some region ∧ (s.unmap region).2.mappings = s.mappings.erase region.start) ∧
    ∀ e, (s.unmap region).1 = .error e → (s.unmap region).2.mappings = s.mappings := by
  unfold Vm.unmap
  have outcome := Vm.tableUnmap_cases s region
  generalize s.tableUnmap region = ended at outcome ⊢
  cases outcome with
  | unmapped mapped entry len same host called =>
    refine ⟨fun _ => ⟨?_,rfl⟩,fun e failed => by cases failed⟩
    exact Vm.entry_whole (keyed _ mapped entry) entry len same
  | _ => exact ⟨fun ok => (by cases ok),fun _ _ => rfl⟩

/-- The built-in platform meets the contract of a mapper, with its table. -/
theorem hosted_atomic : @Mapper.Atomic (Hosted H) _ fun m k => m.vm.mappings[k]? := by
  refine ⟨?_,?_,?_,?_⟩
  · intro m r m' mapped
    have table := (@map_table H _ m.vm r).1 (congrArg Prod.fst mapped)
    obtain rfl := congrArg Prod.snd mapped
    funext k
    change (m.vm.map r).2.mappings[k]? = _
    rw [table,Std.TreeMap.getElem?_insert]
    by_cases here : r.start = k
    · rw [if_pos (Nat.compare_eq_eq.mpr here),← here,Function.update_self]
    · rw [if_neg (fun same => here (Nat.compare_eq_eq.mp same)),Function.update_of_ne (Ne.symm here)]
  · intro m r e m' failed
    have table := (@map_table H _ m.vm r).2 e (congrArg Prod.fst failed)
    obtain rfl := congrArg Prod.snd failed
    exact congrArg (fun (t : Std.TreeMap Nat Region) (k : Nat) => t[k]?) table
  · intro m r m' unmapped
    obtain ⟨entry,table⟩ := (@unmap_table H _ m.vm r m.keyed).1 (congrArg Prod.fst unmapped)
    obtain rfl := congrArg Prod.snd unmapped
    refine ⟨entry,?_⟩
    funext k
    change (m.vm.unmap r).2.mappings[k]? = _
    rw [table,Std.TreeMap.getElem?_erase]
    by_cases here : r.start = k
    · rw [if_pos (Nat.compare_eq_eq.mpr here),← here,Function.update_self]
    · rw [if_neg (fun same => here (Nat.compare_eq_eq.mp same)),Function.update_of_ne (Ne.symm here)]
  · intro m r e m' failed
    have table := (@unmap_table H _ m.vm r m.keyed).2 e (congrArg Prod.fst failed)
    obtain rfl := congrArg Prod.snd failed
    exact congrArg (fun (t : Std.TreeMap Nat Region) (k : Nat) => t[k]?) table

end Contract
end WVmm.Platform.Hvf
