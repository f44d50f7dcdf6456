import Mathlib

/-! Linked chains in a table that anyone may have written: the links from a node
may end, leave the table or run in a cycle. A walk of bounded length takes every
chain that ends inside the table, and a walk that exhausts a bound as large as
the table has come back to a node or left the table. -/
namespace WVmm.Lib.Trails

variable {ι α ε : Type}

/-- The nodes of a chain that ends, in link order. -/
inductive Trail (node : ι → Option α) (link : α → Option ι) : ι → List α → Prop
  | last {i : ι} {a : α} : node i = some a → link a = none → Trail node link i [a]
  | more {i j : ι} {a : α} {rest : List α} : node i = some a → link a = some j →
      Trail node link j rest → Trail node link i (a::rest)

def visited (node : ι → Option α) (link : α → Option ι) (i : ι) : Nat → Option ι
  | 0 => some i
  | k+1 => ((node i).bind link).bind (fun j => visited node link j k)

/-- A walk that gives up after a number of nodes. -/
def walk (fetch : ι → Except ε α) (link : α → Option ι) (exhausted : ε) : Nat → ι → Except ε (List α)
  | 0, _ => .error exhausted
  | fuel+1, i => do
    let a ← fetch i
    match link a with
    | none => return [a]
    | some j => do
      let rest ← walk fetch link exhausted fuel j
      return a::rest

variable {node : ι → Option α} {link : α → Option ι}

theorem visited_succ {i j : ι} {a : α} (found : node i = some a) (linked : link a = some j) (k : Nat) :
    visited node link i (k + 1) = visited node link j k := by
  simp only [visited,found,linked,Option.bind_some]

theorem visited_ended {i : ι} {a : α} (found : node i = some a) (ended : link a = none) (k : Nat) :
    visited node link i (k + 1) = none := by
  simp only [visited,found,ended,Option.bind_some,Option.bind_none]

theorem visited_missing {i : ι} (missing : node i = none) (k : Nat) :
    visited node link i (k + 1) = none := by
  simp only [visited,missing,Option.bind_none]

theorem visited_add (i : ι) (m k : Nat) :
    visited node link i (m + k) = (visited node link i m).bind (fun j => visited node link j k) := by
  induction m generalizing i with
  | zero => simp only [Nat.zero_add,visited,Option.bind_some]
  | succ m ih =>
    rw [Nat.add_right_comm,visited,visited]
    cases (node i).bind link with
    | none => rfl
    | some j => exact ih j

/-- A node with a link has contents. -/
theorem visited_node {i j : ι} {m k : Nat} (here : visited node link i k = some j) (less : k < m)
    (further : visited node link i m ≠ none) : ∃ a, node j = some a := by
  obtain ⟨rest,rfl⟩ := Nat.exists_eq_add_of_lt less
  cases found : node j with
  | some a => exact ⟨a,rfl⟩
  | none =>
    refine absurd ?_ further
    rw [Nat.add_assoc,visited_add,here,Option.bind_some,visited_missing found]

/-- Links that come back to a node never end. -/
theorem visited_forever {i j : ι} {m n : Nat} (less : m < n) (first : visited node link i m = some j)
    (again : visited node link i n = some j) (k : Nat) : visited node link i k ≠ none := by
  obtain ⟨gap,rfl⟩ := Nat.exists_eq_add_of_lt less
  have around : visited node link j (gap + 1) = some j := by
    rw [Nat.add_assoc,visited_add,first,Option.bind_some] at again
    exact again
  have often : ∀ turns, visited node link j (turns * (gap + 1)) = some j := by
    intro turns
    induction turns with
    | zero => simp only [Nat.zero_mul,visited]
    | succ turns ih => rw [Nat.succ_mul,visited_add,ih,Option.bind_some,around]
  intro ended
  have late : k ≤ m + k * (gap + 1) := by
    exact Nat.le_add_left_of_le (Nat.le_mul_of_pos_right k (Nat.succ_pos gap))
  obtain ⟨rest,total⟩ := Nat.exists_eq_add_of_le late
  have reached : visited node link i (m + k * (gap + 1)) = some j := by
    rw [visited_add,first,Option.bind_some,often]
  rw [total,visited_add,ended] at reached
  cases reached

namespace Trail

variable {i : ι} {l : List α}

theorem ends (trail : Trail node link i l) : visited node link i l.length = none := by
  induction trail with
  | last found ended => exact visited_ended found ended 0
  | more found linked _ ih =>
    rw [List.length_cons,visited_succ found linked]
    exact ih

theorem at_index (trail : Trail node link i l) {k : Nat} (less : k < l.length) :
    ∃ j, visited node link i k = some j ∧ node j = some l[k] := by
  induction trail generalizing k with
  | last found ended =>
    obtain rfl : k = 0 := by simpa using less
    exact ⟨_,rfl,found⟩
  | more found linked _ ih =>
    cases k with
    | zero => exact ⟨_,rfl,found⟩
    | succ k =>
      rw [visited_succ found linked]
      exact ih (by simpa using less)

/-- The links from the first node meet no others. -/
theorem contains {j : ι} {a : α} {k : Nat} (trail : Trail node link i l) (here : visited node link i k = some j)
    (found : node j = some a) : a ∈ l := by
  induction trail generalizing k with
  | last held ended =>
    cases k with
    | zero =>
      cases here
      rw [Option.some_inj.mp (found.symm.trans held)]
      exact List.mem_singleton_self _
    | succ k =>
      rw [visited_ended held ended] at here
      cases here
  | more held linked _ ih =>
    cases k with
    | zero =>
      cases here
      rw [Option.some_inj.mp (found.symm.trans held)]
      exact List.mem_cons_self
    | succ k =>
      rw [visited_succ held linked] at here
      exact List.mem_cons_of_mem _ (ih here)

theorem unique {l' : List α} (trail : Trail node link i l) (other : Trail node link i l') : l = l' := by
  induction trail generalizing l' with
  | last found ended =>
    cases other with
    | last found' _ => rw [Option.some_inj.mp (found.symm.trans found')]
    | more found' linked' _ =>
      rw [Option.some_inj.mp (found.symm.trans found'),linked'] at ended
      cases ended
  | more found linked _ ih =>
    cases other with
    | last found' ended' =>
      rw [Option.some_inj.mp (found.symm.trans found'),ended'] at linked
      cases linked
    | more found' linked' trail' =>
      obtain rfl := Option.some_inj.mp (found.symm.trans found')
      obtain rfl := Option.some_inj.mp (linked.symm.trans linked')
      rw [ih trail']

end Trail

section Tables
variable {table : Finset ι} (inside : ∀ i a, node i = some a → i ∈ table)
include inside

/-- More visits than the table has nodes come back to a node. -/
theorem revisits [DecidableEq ι] {i : ι} {n : Nat} (more : table.card ≤ n) {j : ι}
    (here : visited node link i n = some j) (member : j ∈ table) :
    ∃ m k j, m < k ∧ visited node link i m = some j ∧ visited node link i k = some j := by
  have placed : ∀ k ∈ Finset.range (n + 1), (visited node link i k).getD i ∈ table := by
    intro k bound
    rcases Nat.lt_succ_iff_lt_or_eq.mp (Finset.mem_range.mp bound) with less | rfl
    · cases there : visited node link i k with
      | none =>
        obtain ⟨rest,rfl⟩ := Nat.exists_eq_add_of_le (Nat.le_of_lt less)
        rw [visited_add,there] at here
        cases here
      | some j' =>
        obtain ⟨a,found⟩ := visited_node there less (by rw [here]; exact Option.some_ne_none j)
        exact inside j' a found
    · rw [here]
      exact member
  have known : ∀ k ∈ Finset.range (n + 1), ∃ j, visited node link i k = some j := by
    intro k bound
    obtain ⟨rest,total⟩ := Nat.exists_eq_add_of_le (Nat.lt_succ_iff.mp (Finset.mem_range.mp bound))
    cases there : visited node link i k with
    | some j' => exact ⟨j',rfl⟩
    | none =>
      rw [total,visited_add,there] at here
      cases here
  have crowded : table.card < (Finset.range (n + 1)).card := by
    rw [Finset.card_range]
    exact Nat.lt_succ_of_le more
  obtain ⟨m,first,k,second,apart,same⟩ :=
    Finset.exists_ne_map_eq_of_card_lt_of_maps_to crowded placed
  obtain ⟨j₁,at₁⟩ := known m first
  obtain ⟨j₂,at₂⟩ := known k second
  rw [at₁,at₂,Option.getD_some,Option.getD_some] at same
  subst same
  rcases Nat.lt_or_gt_of_ne apart with less | greater
  · exact ⟨m,k,j₁,less,at₁,at₂⟩
  · exact ⟨k,m,j₁,greater,at₂,at₁⟩

/-- A chain that ends is no longer than its table. -/
theorem Trail.length_le [DecidableEq ι] {i : ι} {l : List α} (trail : Trail node link i l) :
    l.length ≤ table.card := by
  by_contra longer
  obtain ⟨j,here,found⟩ := trail.at_index (Nat.lt_of_not_le longer)
  obtain ⟨m,k,j',less,first,again⟩ := revisits inside (Nat.le_refl _) here (inside j _ found)
  exact visited_forever less first again _ trail.ends

end Tables

section Walks
variable {fetch : ι → Except ε α} {exhausted : ε} {good : α → Prop}
  (opens : ∀ i a, fetch i = .ok a ↔ node i = some a ∧ good a)
include opens

/-- A bounded walk takes exactly the good chains within its bound. -/
theorem walk_ok {fuel : Nat} {i : ι} {l : List α} : walk fetch link exhausted fuel i = .ok l ↔
    Trail node link i l ∧ (∀ a ∈ l, good a) ∧ l.length ≤ fuel := by
  induction fuel generalizing i l with
  | zero =>
    refine ⟨nofun,?_⟩
    rintro ⟨trail,_,short⟩
    cases trail <;> simp at short
  | succ fuel ih =>
    cases fetched : fetch i with
    | error e =>
      simp only [walk,fetched,bind,Except.bind]
      refine ⟨nofun,?_⟩
      rintro ⟨trail,sound,_⟩
      have opened : ∀ a, node i = some a → good a → False := by
        intro a found fine
        rw [(opens i a).mpr ⟨found,fine⟩] at fetched
        cases fetched
      cases trail with
      | last found _ => exact (opened _ found (sound _ (by simp))).elim
      | more found _ _ => exact (opened _ found (sound _ (by simp))).elim
    | ok a =>
      obtain ⟨found,fine⟩ := (opens i a).mp fetched
      cases linked : link a with
      | none =>
        simp only [walk,fetched,linked,bind,Except.bind,pure,Except.pure,Except.ok.injEq]
        constructor
        · rintro rfl
          exact ⟨.last found linked,by simpa using fine,by simp⟩
        · rintro ⟨trail,_,_⟩
          exact (Trail.last found linked).unique trail
      | some j =>
        simp only [walk,fetched,linked,bind,Except.bind,pure,Except.pure]
        constructor
        · intro walked
          cases rest : walk fetch link exhausted fuel j with
          | error e => simp [rest] at walked
          | ok l' =>
            simp only [rest,Except.ok.injEq] at walked
            obtain ⟨trail,sound,short⟩ := ih.mp rest
            subst walked
            refine ⟨.more found linked trail,?_,by simpa using short⟩
            intro b member
            rcases List.mem_cons.mp member with rfl | later
            · exact fine
            · exact sound b later
        · rintro ⟨trail,sound,short⟩
          cases trail with
          | last found' ended =>
            rw [← Option.some_inj.mp (found.symm.trans found'),linked] at ended
            cases ended
          | more found' linked' trail' =>
            obtain rfl := Option.some_inj.mp (found.symm.trans found')
            obtain rfl := Option.some_inj.mp (linked.symm.trans linked')
            have rest := ih.mpr ⟨trail',fun b later => sound b (List.mem_cons_of_mem _ later),
              Nat.le_of_succ_le_succ short⟩
            simp only [rest]

/-- A walk gives up exactly when every node within its bound is good and linked. -/
theorem walk_exhausted (fresh : ∀ i, fetch i ≠ .error exhausted) {fuel : Nat} {i : ι} :
    walk fetch link exhausted fuel i = .error exhausted ↔
      (∃ j, visited node link i fuel = some j) ∧
        ∀ k < fuel, ∀ j a, visited node link i k = some j → node j = some a → good a := by
  induction fuel generalizing i with
  | zero => simp [walk,visited]
  | succ fuel ih =>
    cases fetched : fetch i with
    | error e =>
      simp only [walk,fetched,bind,Except.bind]
      constructor
      · intro gave
        cases gave
        exact absurd fetched (fresh i)
      · rintro ⟨⟨j,there⟩,sound⟩
        obtain ⟨a,found⟩ := visited_node (i := i) (j := i) rfl (Nat.succ_pos fuel)
          (by rw [there]; exact Option.some_ne_none j)
        have opened := (opens i a).mpr ⟨found,sound 0 (Nat.succ_pos fuel) i a rfl found⟩
        rw [opened] at fetched
        cases fetched
    | ok a =>
      obtain ⟨found,fine⟩ := (opens i a).mp fetched
      cases linked : link a with
      | none =>
        simp only [walk,fetched,linked,bind,Except.bind]
        refine ⟨nofun,?_⟩
        rintro ⟨⟨j,there⟩,_⟩
        rw [visited_ended found linked] at there
        cases there
      | some j =>
        have same : walk fetch link exhausted (fuel + 1) i = .error exhausted ↔
            walk fetch link exhausted fuel j = .error exhausted := by
          simp only [walk,fetched,linked,bind,Except.bind,pure,Except.pure]
          cases rest : walk fetch link exhausted fuel j <;> simp
        rw [same,ih,visited_succ found linked]
        refine and_congr_right (fun _ => ⟨?_,?_⟩)
        · intro sound k less j' b there found'
          cases k with
          | zero =>
            obtain rfl : i = j' := by simpa [visited] using there
            rw [← Option.some_inj.mp (found.symm.trans found')]
            exact fine
          | succ k =>
            rw [visited_succ found linked] at there
            exact sound k (Nat.lt_of_succ_lt_succ less) j' b there found'
        · intro sound k less j' b there found'
          exact sound (k + 1) (Nat.succ_lt_succ less) j' b
            ((visited_succ found linked k).trans there) found'

end Walks
end WVmm.Lib.Trails
