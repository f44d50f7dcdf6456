import Mathlib

/-! Flattened device trees at the level of their tokens: a tree is written as nested
begin and end tokens with its properties between them, and read back by a stack of open
nodes. Cells are big-endian words. -/
namespace WVmm.Lib.DeviceTree

inductive Node
  | mk (name : String) (properties : List (String × List UInt8)) (children : List Node)

inductive Token
  | beginNode (name : String)
  | property (name : String) (value : List UInt8)
  | endNode
deriving DecidableEq

namespace Node

def name : Node → String
  | mk name _ _ => name

def properties : Node → List (String × List UInt8)
  | mk _ properties _ => properties

def children : Node → List Node
  | mk _ _ children => children

def get (n : Node) (property : String) : Option (List UInt8) := n.properties.lookup property

end Node

/-- Nodes next to each other have names of their own, at every depth. -/
inductive Node.Distinct : Node → Prop
  | mk {name : String} {properties : List (String × List UInt8)} {children : List Node}
    (names : (children.map Node.name).Nodup) (below : ∀ n ∈ children, n.Distinct) : Distinct (.mk name properties children)

theorem Node.distinct_leaf (name : String) (properties : List (String × List UInt8)) : (Node.mk name properties []).Distinct :=
  .mk List.nodup_nil (List.forall_mem_nil _)

def propertyTokens (properties : List (String × List UInt8)) : List Token := properties.map fun p => .property p.1 p.2

mutual

def Node.tokens : Node → List Token
  | .mk name properties children => .beginNode name::(propertyTokens properties ++ (forest children ++ [.endNode]))

def forest : List Node → List Token
  | [] => []
  | n::rest => n.tokens ++ forest rest

end

structure Open where
  name : String
  properties : List (String × List UInt8)
  children : List Node

/-- What has been read: the open nodes, the innermost first, and the ended trees. -/
structure Reader where
  opened : List Open
  done : List Node

namespace Reader

def add (r : Reader) (n : Node) : Reader := match r.opened with
  | [] => {r with done := r.done ++ [n]}
  | top::rest => {r with opened := {top with children := top.children ++ [n]}::rest}

/-- Read a token. Properties come before children. -/
def step (r : Reader) : Token → Option Reader
  | .beginNode name => some {r with opened := ⟨name,[],[]⟩::r.opened}
  | .property name value => match r.opened with
    | ⟨parent,properties,[]⟩::rest => some {r with opened := ⟨parent,properties ++ [(name,value)],[]⟩::rest}
    | _ => none
  | .endNode => match r.opened with
    | top::rest => some ({r with opened := rest}.add (.mk top.name top.properties top.children))
    | [] => none

end Reader

def read (tokens : List Token) : Option Node :=
  match tokens.foldlM Reader.step ⟨[],[]⟩ with
  | some ⟨[],[root]⟩ => some root
  | _ => none

section RoundTrip

theorem foldlM_append (xs ys : List Token) (r : Reader) :
    (xs ++ ys).foldlM Reader.step r = (xs.foldlM Reader.step r).bind fun s => ys.foldlM Reader.step s := by
  rw [List.foldlM_append]
  rfl

theorem properties_read (more properties : List (String × List UInt8)) (name : String) (rest : List Open) (done : List Node) :
    (propertyTokens more).foldlM Reader.step ⟨⟨name,properties,[]⟩::rest,done⟩ =
      some ⟨⟨name,properties ++ more,[]⟩::rest,done⟩ := by
  induction more generalizing properties with
  | nil => simp [propertyTokens]
  | cons p more ih =>
    change (propertyTokens more).foldlM Reader.step ⟨⟨name,properties ++ [(p.1,p.2)],[]⟩::rest,done⟩ = _
    rw [ih,List.append_assoc,List.singleton_append]

mutual

/-- Reading the tokens of a tree adds the tree. -/
theorem node_read (n : Node) (r : Reader) : n.tokens.foldlM Reader.step r = some (r.add n) := by
  cases n with
  | mk name properties children =>
    have opened : (Node.mk name properties children).tokens.foldlM Reader.step r =
        (propertyTokens properties ++ (forest children ++ [Token.endNode])).foldlM Reader.step
          ⟨⟨name,[],[]⟩::r.opened,r.done⟩ := rfl
    rw [opened,foldlM_append,properties_read,Option.bind_some,foldlM_append,forest_read]
    rfl

theorem forest_read (ns : List Node) (parent : String) (properties : List (String × List UInt8)) (before : List Node)
    (rest : List Open) (done : List Node) : (forest ns).foldlM Reader.step ⟨⟨parent,properties,before⟩::rest,done⟩ =
      some ⟨⟨parent,properties,before ++ ns⟩::rest,done⟩ := by
  cases ns with
  | nil => simp [forest]
  | cons n ns =>
    rw [forest,foldlM_append,node_read n,Option.bind_some]
    change (forest ns).foldlM Reader.step ⟨⟨parent,properties,before ++ [n]⟩::rest,done⟩ = _
    rw [forest_read ns,List.append_assoc,List.singleton_append]

end

/-- A tree is read back from its tokens. -/
theorem read_tokens (n : Node) : read n.tokens = some n := by
  have all := node_read n ⟨[],[]⟩
  unfold read
  rw [all]
  rfl

theorem forest_map {α : Type} (f : α → Node) (xs : List α) : forest (xs.map f) = xs.flatMap fun x => (f x).tokens := by
  induction xs with
  | nil => rfl
  | cons x xs ih => rw [List.map_cons,forest,ih,List.flatMap_cons]

end RoundTrip

section Cells

def toBytes : Nat → Nat → List UInt8
  | 0, _ => []
  | width+1, value => UInt8.ofNat (value / 256^width)::toBytes width value

def fromBytes (bytes : List UInt8) : Nat := bytes.foldl (fun value b => 256 * value + b.toNat) 0

def words (width : Nat) (bytes : List UInt8) : List Nat :=
  (List.range (bytes.length / width)).map fun k => fromBytes ((bytes.drop (k * width)).take width)

@[simp] theorem toBytes_length (width value : Nat) : (toBytes width value).length = width := by
  induction width with
  | zero => rfl
  | succ width ih => rw [toBytes,List.length_cons,ih]

theorem foldl_toBytes (width value start : Nat) :
    (toBytes width value).foldl (fun value b => 256 * value + b.toNat) start = start * 256^width + value % 256^width := by
  induction width generalizing start with
  | zero => simp [toBytes,Nat.mod_one]
  | succ width ih =>
    have digit : (UInt8.ofNat (value / 256^width)).toNat = value / 256^width % 256 := by simp
    rw [toBytes,List.foldl_cons,ih,digit,Nat.pow_succ,Nat.mod_mul]
    ring

theorem fromBytes_toBytes {width value : Nat} (fits : value < 256^width) : fromBytes (toBytes width value) = value := by
  unfold fromBytes
  rw [foldl_toBytes,Nat.zero_mul,Nat.zero_add,Nat.mod_eq_of_lt fits]

def cells (width : Nat) (values : List Nat) : List UInt8 := values.flatMap (toBytes width)

theorem cells_length (width : Nat) (values : List Nat) : (cells width values).length = values.length * width := by
  induction values with
  | nil => simp [cells]
  | cons value values ih =>
    have split : cells width (value::values) = toBytes width value ++ cells width values := List.flatMap_cons
    rw [split,List.length_append,toBytes_length,ih,List.length_cons]
    ring

theorem cells_word {width : Nat} (values : List Nat) (k : Nat) (inside : k < values.length) :
    ((cells width values).drop (k * width)).take width = toBytes width values[k] := by
  induction values generalizing k with
  | nil => cases inside
  | cons value values ih =>
    have split : cells width (value::values) = toBytes width value ++ cells width values := List.flatMap_cons
    rw [split]
    cases k with
    | zero => simp
    | succ k =>
      have past : (k + 1) * width = (toBytes width value).length + k * width := by
        rw [toBytes_length]
        ring
      rw [past,List.drop_length_add_append]
      exact ih k (Nat.lt_of_succ_lt_succ inside)

theorem words_cells {width : Nat} (positive : 0 < width) {values : List Nat} (fit : ∀ value ∈ values, value < 256^width) :
    words width (cells width values) = values := by
  unfold words
  rw [cells_length,Nat.mul_div_cancel _ positive]
  refine List.ext_getElem (by simp) fun k inside _ => ?_
  have there : k < values.length := by simpa using inside
  rw [List.getElem_map,List.getElem_range,cells_word values k there]
  exact fromBytes_toBytes (fit _ (List.getElem_mem there))

end Cells
end WVmm.Lib.DeviceTree
