import WVmm.Network.Vmnet

/-! The life of a backend: it is made, used and dropped. Whatever the framework
answers, an interface that it handed out is stopped once and not used afterwards. -/
namespace WVmm.Network
open Lib.Effect Devices

variable {fw : Framework}

inductive Use
  | send (frame : List VolatileSlice) (host : Host)
  | recv (buffer : List VolatileSlice) (host : Host)
  | close

namespace Use

def closes : Use → Bool
  | .close => true
  | _ => false

def run (s : Session fw) : Use → Session fw
  | .send frame host => ((Vmnet.send frame host).run s).2
  | .recv buffer host => ((Vmnet.recv buffer).run (s,host)).2.1
  | .close => (Vmnet.close.run s).2

/-- The packet call of a use on an open interface; a use that does not fit makes
none. -/
def call (interface : Interface) (max : Nat) : Use → Option Call
  | .send frame _ =>
    if 14 ≤ (hostBytes frame).length ∧ (hostBytes frame).length ≤ max ∧ (Vmnet.gather frame).length < 2 ^ 32 then
      some (.write interface ⟨(hostBytes frame).length,Vmnet.gather frame⟩)
    else none
  | .recv buffer _ =>
    if max ≤ (hostBytes buffer).length ∧ (Vmnet.gather buffer).length < 2 ^ 32 then
      some (.read interface ⟨(hostBytes buffer).length,Vmnet.gather buffer⟩)
    else none
  | .close => none

def calls (d : Vmnet) (u : Use) : List Call :=
  match d.interface with
  | none => []
  | some interface => if u.closes then [.stop interface] else (u.call interface d.maxFrame).toList

end Use

def life (uses : List Use) (out : Outside fw) : Outside fw :=
  match Vmnet.shared.run out with
  | (.error _,out) => out
  | (.ok backend,out) => (Vmnet.drop.run (uses.foldl Use.run ⟨backend,out,[]⟩)).2.outside

theorem Vmnet.total_eq (slices : List VolatileSlice) : total slices = (hostBytes slices).length := by
  rw [total,hostBytes,List.length_flatMap]
  simp only [VolatileSlice.bytes,List.length_range']

/-- Leaving the empty segments out keeps the bytes. -/
theorem Vmnet.gather_bytes (slices : List VolatileSlice) : hostBytes (gather slices) = hostBytes slices := by
  induction slices with
  | nil => rfl
  | cons s rest ih =>
    by_cases empty : s.len = 0
    · have nothing : s.bytes = [] := by rw [VolatileSlice.bytes,empty,List.range'_zero]
      simp only [gather,hostBytes,ne_eq,empty,not_true_eq_false,decide_false,Bool.false_eq_true,not_false_eq_true,
        List.filter_cons_of_neg,List.flatMap_cons,nothing,List.nil_append] at ih ⊢
      exact ih
    · simp only [gather,hostBytes,ne_eq,empty,not_false_eq_true,decide_true,List.filter_cons_of_pos,
        List.flatMap_cons] at ih ⊢
      rw [ih]

/-- A packet with all bytes of a use, in segments that are not empty. -/
structure Packet.Whole (packet : Packet) (slices : List VolatileSlice) : Prop where
  size : packet.size = (hostBytes slices).length
  bytes : hostBytes packet.iov = hostBytes slices
  filled : ∀ s ∈ packet.iov, s.len ≠ 0

theorem Vmnet.gather_whole (slices : List VolatileSlice) :
    (⟨(hostBytes slices).length,gather slices⟩ : Packet).Whole slices :=
  ⟨rfl,gather_bytes slices,fun s member => by simpa using (List.mem_filter.mp member).2⟩

/-- The call that a use makes: a frame is legal, and a buffer takes any frame. -/
inductive Carries (interface : Interface) (max : Nat) : Use → Call → Prop
  | write {frame : List VolatileSlice} {host : Host} {packet : Packet} : packet.Whole frame → 14 ≤ packet.size →
      packet.size ≤ max → Carries interface max (.send frame host) (.write interface packet)
  | read {buffer : List VolatileSlice} {host : Host} {packet : Packet} : packet.Whole buffer → max ≤ packet.size →
      Carries interface max (.recv buffer host) (.read interface packet)

theorem Use.call_carries {interface : Interface} {max : Nat} {u : Use} {c : Call} (called : u.call interface max = some c) :
    Carries interface max u c := by
  cases u with
  | send frame host =>
    simp only [call] at called
    split at called
    · rename_i fits
      cases called
      exact .write (Vmnet.gather_whole frame) fits.1 fits.2.1
    · cases called
  | recv buffer host =>
    simp only [call] at called
    split at called
    · rename_i fits
      cases called
      exact .read (Vmnet.gather_whole buffer) fits.1
    · cases called
  | close => cases called

section Steps
variable (s : Session fw)

/-- The stop is the only call of a close, and the interface is given up whatever it
answers. -/
theorem Vmnet.close_run :
    ((close.run s).2.outside.calls = s.outside.calls ++ Use.close.calls s.backend) ∧
      (close.run s).2.backend = {s.backend with interface := none} := by
  obtain ⟨⟨interface,mac,max,ipv4⟩,out⟩ := s
  cases interface with
  | none => exact ⟨(List.append_nil _).symm,rfl⟩
  | some interface =>
    rcases answer : fw.stopInterface out.state interface with ⟨status,completion,state⟩
    simp only [close,Prog.run_bind,Prog.run_get,Prog.run_modify,stopInterface,Prog.run_mk,Prog.run_ofExcept,answer]
    cases checked : check status "stop vmnet" with
    | error e => exact ⟨rfl,rfl⟩
    | ok done =>
      cases completion with
      | error e => exact ⟨rfl,rfl⟩
      | ok final => exact ⟨rfl,rfl⟩

theorem Vmnet.drop_run : (drop.run s).2 = (close.run s).2 := rfl

theorem Vmnet.send_run (frame : List VolatileSlice) (host : Host) :
    ((send frame host).run s).2.outside.calls = s.outside.calls ++ (Use.send frame host).calls s.backend ∧
      ((send frame host).run s).2.backend = s.backend := by
  have nothing : s.outside.calls = s.outside.calls ++ [] := (List.append_nil _).symm
  rw [send,Prog.run_bind,Prog.run_get]
  simp only [Prog.run_guard,total_eq]
  by_cases sized : 14 ≤ (hostBytes frame).length ∧ (hostBytes frame).length ≤ s.backend.maxFrame
  swap
  · rw [if_neg sized]
    refine ⟨?_,rfl⟩
    unfold Use.calls
    split
    · exact nothing
    · simp only [Use.closes,Use.call,Bool.false_eq_true,if_false]
      rw [if_neg (fun fits => sized ⟨fits.1,fits.2.1⟩)]
      exact nothing
  rw [if_pos sized]
  by_cases counted : (gather frame).length < 2 ^ 32
  swap
  · rw [if_neg counted]
    refine ⟨?_,rfl⟩
    unfold Use.calls
    split
    · exact nothing
    · simp only [Use.closes,Use.call,Bool.false_eq_true,if_false]
      rw [if_neg (fun fits => counted fits.2.2)]
      exact nothing
  rw [if_pos counted]
  cases held : s.backend.interface with
  | none =>
    simp only [opened,held,Prog.run_bind,Prog.run_ofExcept,Use.calls]
    exact ⟨nothing,trivial⟩
  | some interface =>
    have issued : (Use.send frame host).calls s.backend =
        [.write interface ⟨(hostBytes frame).length,gather frame⟩] := by
      simp only [Use.calls,held,Use.closes,Use.call,Bool.false_eq_true,if_false]
      rw [if_pos ⟨sized.1,sized.2,counted⟩]
      rfl
    rw [issued]
    rcases answer : fw.write s.outside.state interface ⟨(hostBytes frame).length,gather frame⟩ host with
      ⟨status,count,state⟩
    simp only [opened,held,Prog.run_bind,Prog.run_ofExcept,write,Prog.run_mk,answer]
    split
    · exact ⟨rfl,rfl⟩
    · cases checked : check status "vmnet write" with
      | error e => exact ⟨rfl,rfl⟩
      | ok done =>
        rw [Prog.run_bind,Prog.run_ofExcept]
        dsimp only
        rw [Prog.run_guard]
        split <;> exact ⟨rfl,rfl⟩

theorem Vmnet.recv_run (buffer : List VolatileSlice) (host : Host) :
    ((recv buffer).run (s,host)).2.1.outside.calls = s.outside.calls ++ (Use.recv buffer host).calls s.backend ∧
      ((recv buffer).run (s,host)).2.1.backend = s.backend := by
  have nothing : s.outside.calls = s.outside.calls ++ [] := (List.append_nil _).symm
  rw [recv,Prog.run_bind,Prog.run_get]
  simp only [Prog.run_guard,total_eq]
  by_cases sized : s.backend.maxFrame ≤ (hostBytes buffer).length
  swap
  · rw [if_neg sized]
    refine ⟨?_,rfl⟩
    unfold Use.calls
    split
    · exact nothing
    · simp only [Use.closes,Use.call,Bool.false_eq_true,if_false]
      rw [if_neg (fun fits => sized fits.1)]
      exact nothing
  rw [if_pos sized]
  by_cases counted : (gather buffer).length < 2 ^ 32
  swap
  · rw [if_neg counted]
    refine ⟨?_,rfl⟩
    unfold Use.calls
    split
    · exact nothing
    · simp only [Use.closes,Use.call,Bool.false_eq_true,if_false]
      rw [if_neg (fun fits => counted fits.2)]
      exact nothing
  rw [if_pos counted]
  cases held : s.backend.interface with
  | none =>
    simp only [opened,held,Prog.run_bind,Prog.run_ofExcept,Use.calls]
    exact ⟨nothing,trivial⟩
  | some interface =>
    have issued : (Use.recv buffer host).calls s.backend =
        [.read interface ⟨(hostBytes buffer).length,gather buffer⟩] := by
      simp only [Use.calls,held,Use.closes,Use.call,Bool.false_eq_true,if_false]
      rw [if_pos ⟨sized,counted⟩]
      rfl
    rw [issued]
    rcases answer : fw.read s.outside.state interface ⟨(hostBytes buffer).length,gather buffer⟩ host with
      ⟨status,count,size,state,host'⟩
    simp only [opened,held,Prog.run_bind,Prog.run_ofExcept,read,Prog.run_mk,answer]
    cases checked : check status "vmnet read" with
    | error e => exact ⟨rfl,rfl⟩
    | ok done =>
      dsimp only
      rw [Prog.run_require]
      by_cases legal : 0 ≤ count ∧ count ≤ 1
      · rw [if_pos legal]
        by_cases empty : count = 0
        · simp only [empty,if_true]
          exact ⟨rfl,rfl⟩
        · simp only [empty,if_false]
          rw [Prog.run_guard]
          split <;> exact ⟨rfl,rfl⟩
      · rw [if_neg legal]
        exact ⟨rfl,rfl⟩

theorem Use.run_calls (u : Use) :
    (u.run s).outside.calls = s.outside.calls ++ u.calls s.backend ∧
      (u.run s).backend = if u.closes then {s.backend with interface := none} else s.backend := by
  cases u with
  | send frame host => exact Vmnet.send_run s frame host
  | recv buffer host => exact Vmnet.recv_run s buffer host
  | close => exact Vmnet.close_run s

end Steps

theorem Use.closed_calls {d : Vmnet} (closed : d.interface = none) (u : Use) : u.calls d = [] := by
  rw [calls,closed]

/-- Nothing more is asked of the framework once the interface is given up. -/
theorem closed_run (uses : List Use) (s : Session fw) (closed : s.backend.interface = none) :
    (uses.foldl Use.run s).outside.calls = s.outside.calls ∧ (uses.foldl Use.run s).backend.interface = none := by
  induction uses generalizing s with
  | nil => exact ⟨rfl,closed⟩
  | cons u rest ih =>
    obtain ⟨calls,backend⟩ := u.run_calls s
    have gone : (u.run s).backend.interface = none := by
      rw [backend]
      split
      · rfl
      · exact closed
    obtain ⟨same,still⟩ := ih (u.run s) gone
    refine ⟨?_,still⟩
    rw [List.foldl_cons,same,calls,Use.closed_calls closed,List.append_nil]

/-- The packet calls of a life: those of the uses before the first close. -/
def packets (interface : Interface) (max : Nat) (uses : List Use) : List Call :=
  (uses.takeWhile (fun u => !u.closes)).filterMap (Use.call interface max)

/-- From an open backend the framework sees the packets and then one stop. -/
theorem open_run (uses : List Use) (s : Session fw) {interface : Interface} (held : s.backend.interface = some interface) :
    (Vmnet.drop.run (uses.foldl Use.run s)).2.outside.calls =
      s.outside.calls ++ (packets interface s.backend.maxFrame uses ++ [.stop interface]) := by
  induction uses generalizing s with
  | nil =>
    rw [List.foldl_nil,Vmnet.drop_run,(Vmnet.close_run s).1,Use.calls,held]
    rfl
  | cons u rest ih =>
    obtain ⟨calls,backend⟩ := u.run_calls s
    rw [List.foldl_cons]
    by_cases closes : u.closes = true
    · rw [if_pos closes] at backend
      have gone : (u.run s).backend.interface = none := by rw [backend]
      obtain ⟨same,still⟩ := closed_run rest (u.run s) gone
      rw [Vmnet.drop_run,(Vmnet.close_run _).1,Use.closed_calls still,List.append_nil,same,calls,Use.calls,held]
      simp only [packets,closes,Bool.not_true,Bool.false_eq_true,not_false_eq_true,List.takeWhile_cons_of_neg,
        List.filterMap_nil,List.nil_append,if_true]
    · rw [if_neg closes] at backend
      rw [ih (u.run s) (by rw [backend]; exact held),calls,backend,Use.calls,held,List.append_assoc]
      simp only [packets,closes,Bool.not_false,List.takeWhile_cons_of_pos,Bool.false_eq_true,if_false]
      cases called : u.call interface s.backend.maxFrame with
      | none => simp only [List.filterMap_cons_none called,Option.toList_none,List.nil_append]
      | some c => simp only [List.filterMap_cons_some called,Option.toList_some,List.cons_append,List.nil_append]

/-- The calls of a life, by how far the backend was made. -/
inductive Lived (uses : List Use) : List Call → Prop
  | undescribed : Lived uses []
  | refused : Lived uses [.start none]
  | failed (interface : Interface) : Lived uses [.start (some interface),.stop interface]
  | served (interface : Interface) (max : Nat) : 1514 ≤ max → max ≤ 65553 →
      Lived uses (.start (some interface)::(packets interface max uses ++ [.stop interface]))

/-- The parameters of an interface have the address and the frame size in bounds. -/
theorem parameters_sound {dict : Option Dictionary} {params : Parameters} (read : parameters dict = .ok params) :
    params.mac.length = 6 ∧ 1514 ≤ params.maxFrame ∧ params.maxFrame ≤ 65553 := by
  cases dict with
  | none => cases read
  | some dict =>
    rw [parameters] at read
    obtain ⟨text,_,read⟩ := bind_eq_ok.mp read
    obtain ⟨mac,parsed,read⟩ := bind_eq_ok.mp read
    dsimp only at read
    split at read
    · cases read
    split at read
    · cases read
    rename_i standard
    split at read
    · cases read
    rename_i frame
    obtain ⟨gateway,_,read⟩ := bind_eq_ok.mp read
    obtain ⟨poolEnd,_,read⟩ := bind_eq_ok.mp read
    obtain ⟨subnetMask,_,read⟩ := bind_eq_ok.mp read
    cases read
    have mtu : dict.mtu.toNat = 1500 := not_not.mp standard
    have bounds := not_not.mp frame
    have least : 1514 ≤ dict.maxPacketSize.toNat := by omega
    refine ⟨?_,least,bounds.2.2⟩
    cases text with
    | none => cases parsed
    | some text =>
      obtain ⟨parts,_,count,known⟩ := parseMac_success.mp parsed
      rw [← known.length_eq,count]

theorem Vmnet.started_sound {completion : Except Foreign (Nat × Option Dictionary)} {params : Parameters}
    (completed : started completion = .ok params) :
    params.mac.length = 6 ∧ 1514 ≤ params.maxFrame ∧ params.maxFrame ≤ 65553 := by
  obtain ⟨⟨status,dict⟩,_,read⟩ := bind_eq_ok.mp completed
  dsimp only at read
  cases checked : check status "start vmnet" with
  | error e =>
    rw [checked] at read
    cases read
  | ok done =>
    rw [checked] at read
    cases got : parameters dict with
    | error e =>
      rw [Except.bind,got] at read
      cases read
    | ok params' =>
      rw [Except.bind,got] at read
      cases read
      exact parameters_sound got

inductive Vmnet.Made (out : Outside fw) : Except NetError Vmnet × Outside fw → Prop
  | undescribed {e : NetError} {out' : Outside fw} : out'.calls = out.calls → Made out (.error e,out')
  | refused {e : NetError} {out' : Outside fw} : out'.calls = out.calls ++ [.start none] → Made out (.error e,out')
  | failed {e : NetError} {out' : Outside fw} (interface : Interface) :
      out'.calls = out.calls ++ [.start (some interface),.stop interface] → Made out (.error e,out')
  | opened {d : Vmnet} {out' : Outside fw} (interface : Interface) : d.interface = some interface →
      d.mac.length = 6 → 1514 ≤ d.maxFrame → d.maxFrame ≤ 65553 →
      out'.calls = out.calls ++ [.start (some interface)] → Made out (.ok d,out')

theorem Vmnet.shared_made (out : Outside fw) : Made out (shared.run out) := by
  rw [shared,Prog.run_bind]
  simp only [create,Prog.run_mk,Prog.run_guard]
  split
  swap
  · exact .undescribed rfl
  rcases answer : fw.startInterface (fw.create out.state).2 with ⟨interface,completion,state⟩
  simp only [Prog.run_bind,startInterface,Prog.run_mk,answer]
  cases interface with
  | none => exact .refused rfl
  | some interface =>
    cases completed : started completion with
    | error e =>
      refine .failed interface ?_
      rw [drop_run,(close_run _).1,List.append_assoc]
      rfl
    | ok params =>
      obtain ⟨length,least,most⟩ := started_sound completed
      exact .opened interface rfl length least most rfl

/-- Whatever the framework answers and the owner asks, an interface that was started
is stopped once: after its packets, which carry what the uses before the first close
have in mind, and as the last call on it. -/
theorem interface_stopped_once (uses : List Use) (out : Outside fw) :
    (∃ more, (life uses out).calls = out.calls ++ more ∧ Lived uses more) ∧
      ∀ interface max, ∀ c ∈ packets interface max uses, ∃ u ∈ uses, Carries interface max u c := by
  constructor
  · have made := Vmnet.shared_made out
    unfold life
    generalize Vmnet.shared.run out = outcome at made
    cases made with
    | undescribed calls => exact ⟨[],by rw [calls,List.append_nil],.undescribed⟩
    | refused calls => exact ⟨_,calls,.refused⟩
    | failed interface calls => exact ⟨_,calls,.failed interface⟩
    | opened interface held _ least most calls =>
      refine ⟨_,?_,.served interface _ least most⟩
      rw [open_run uses _ held,calls,List.append_assoc]
      rfl
  · intro interface max c member
    obtain ⟨u,inside,called⟩ := List.mem_filterMap.mp member
    exact ⟨u,(List.takeWhile_prefix _).subset inside,Use.call_carries called⟩

end WVmm.Network
