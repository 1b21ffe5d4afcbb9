import BsslRam.ProcessTable
import BsslRam.Lib.ByteOrder

/-!
# The netlink packets of the process connector

`parse_events` of `daemon/src/proc_connector.rs`.  A packet is a netlink header, a
connector message, an event header and a body whose layout depends on the kind of the
event.  The parser copies the structures out of the packet byte by byte, in the byte order
of the machine, behind length checks of its own: `unsafe` code checks nothing.  Here
every slice and every copy that leaves its buffer is a `Fault`.

`Carries` says which event a body carries, over the layout alone: the fields of the body
are given and the bytes follow from them.  `readEvent_sound` and `readEvent_complete` are
the two halves of the parser's correctness, and `parseEvents_packet` takes the headers
off.
-/

namespace BsslRam.ProcConnector

open BsslRam.Lib BsslRam.ProcessTable

/-! ## Structures -/

def PROC_EVENT_FORK : UInt32 := 0x00000001

def PROC_EVENT_EXEC : UInt32 := 0x00000002

def PROC_EVENT_EXIT : UInt32 := 0x80000000

/-- `size_of::<Nlmsghdr>()`. -/
def NLMSGHDR_SIZE : Nat := 16

/-- `size_of::<CnMsg>()`. -/
def CN_MSG_SIZE : Nat := 20

structure ProcEventHeader where
  what : UInt32
  cpu : UInt32
  timestampNs : UInt64

structure ForkPayload where
  parentPid : Int32
  parentTgid : Int32
  childPid : Int32
  childTgid : Int32

structure ExecPayload where
  processPid : Int32
  processTgid : Int32

structure ExitPayload where
  processPid : Int32
  processTgid : Int32
  exitCode : UInt32
  exitSignal : UInt32
  parentPid : Int32
  parentTgid : Int32

def ProcEventHeader.SIZE : Nat := 16

def ForkPayload.SIZE : Nat := 16

def ExecPayload.SIZE : Nat := 8

def ExitPayload.SIZE : Nat := 24

/-! ## The parser -/

/-- An access that leaves its buffer. -/
inductive Fault where
  | outOfBounds
  deriving DecidableEq

/-- `&bytes[n..]`. -/
def sliceFrom (bytes : List UInt8) (n : Nat) : Except Fault (List UInt8) :=
  if n ≤ bytes.length then .ok (bytes.drop n) else .error .outOfBounds

/-- `copy_nonoverlapping` of the first `n` bytes. -/
def copyBytes (bytes : List UInt8) (n : Nat) : Except Fault (List UInt8) :=
  if n ≤ bytes.length then .ok (bytes.take n) else .error .outOfBounds

section Parser

variable (order : ByteOrder)

def ProcEventHeader.ofBytes (bytes : List UInt8) : ProcEventHeader :=
  { what := order.wordAt bytes 0
    cpu := order.wordAt bytes 4
    timestampNs := UInt64.ofNat (order.ofBytes ((bytes.drop 8).take 8)) }

def ForkPayload.ofBytes (bytes : List UInt8) : ForkPayload :=
  { parentPid := (order.wordAt bytes 0).toInt32
    parentTgid := (order.wordAt bytes 4).toInt32
    childPid := (order.wordAt bytes 8).toInt32
    childTgid := (order.wordAt bytes 12).toInt32 }

def ExecPayload.ofBytes (bytes : List UInt8) : ExecPayload :=
  { processPid := (order.wordAt bytes 0).toInt32
    processTgid := (order.wordAt bytes 4).toInt32 }

def ExitPayload.ofBytes (bytes : List UInt8) : ExitPayload :=
  { processPid := (order.wordAt bytes 0).toInt32
    processTgid := (order.wordAt bytes 4).toInt32
    exitCode := order.wordAt bytes 8
    exitSignal := order.wordAt bytes 12
    parentPid := (order.wordAt bytes 16).toInt32
    parentTgid := (order.wordAt bytes 20).toInt32 }

/-- The event of a fork, if the child is a process and not a thread. -/
def ForkPayload.events (p : ForkPayload) : List ProcEvent :=
  if p.childPid = p.childTgid ∧ 0 < p.childPid then
    [.fork p.parentTgid.toUInt32 p.childTgid.toUInt32]
  else []

def ExecPayload.events (p : ExecPayload) : List ProcEvent :=
  if 0 < p.processTgid then [.exec p.processTgid.toUInt32] else []

/-- The event of an exit, if the whole process is gone and not a thread of it. -/
def ExitPayload.events (p : ExitPayload) : List ProcEvent :=
  if p.processPid = p.processTgid ∧ 0 < p.processTgid then [.exit p.processTgid.toUInt32] else []

/-- The `match` of `parse_events` on the kind of the event. -/
def readEvent (what : UInt32) (body : List UInt8) : Except Fault (List ProcEvent) :=
  if what = PROC_EVENT_FORK ∧ ForkPayload.SIZE ≤ body.length then
    (copyBytes body ForkPayload.SIZE).map fun b => (ForkPayload.ofBytes order b).events
  else if what = PROC_EVENT_EXEC ∧ ExecPayload.SIZE ≤ body.length then
    (copyBytes body ExecPayload.SIZE).map fun b => (ExecPayload.ofBytes order b).events
  else if what = PROC_EVENT_EXIT ∧ ExitPayload.SIZE ≤ body.length then
    (copyBytes body ExitPayload.SIZE).map fun b => (ExitPayload.ofBytes order b).events
  else .ok []

/-- `parse_events`.  The source has no error of its own to return. -/
def parseEvents (packet : List UInt8) : Except Fault (List ProcEvent) := do
  if packet.length < NLMSGHDR_SIZE + CN_MSG_SIZE + ProcEventHeader.SIZE then
    return []
  let payload ← sliceFrom packet NLMSGHDR_SIZE
  if payload.length < CN_MSG_SIZE + ProcEventHeader.SIZE then
    return []
  let eventData ← sliceFrom payload CN_MSG_SIZE
  let header ← (copyBytes eventData ProcEventHeader.SIZE).map (ProcEventHeader.ofBytes order)
  let body ← sliceFrom eventData ProcEventHeader.SIZE
  readEvent order header.what body

end Parser

/-! ## The layout -/

section Layout

variable (order : ByteOrder)

def ProcEventHeader.bytes (h : ProcEventHeader) : List UInt8 :=
  order.wire [h.what, h.cpu] ++ order.toBytes 8 h.timestampNs.toNat

def ForkPayload.bytes (p : ForkPayload) : List UInt8 :=
  order.wire [p.parentPid.toUInt32, p.parentTgid.toUInt32, p.childPid.toUInt32,
    p.childTgid.toUInt32]

def ExecPayload.bytes (p : ExecPayload) : List UInt8 :=
  order.wire [p.processPid.toUInt32, p.processTgid.toUInt32]

def ExitPayload.bytes (p : ExitPayload) : List UInt8 :=
  order.wire [p.processPid.toUInt32, p.processTgid.toUInt32, p.exitCode, p.exitSignal,
    p.parentPid.toUInt32, p.parentTgid.toUInt32]

/-- The body of an event of kind `what` carries a process-level event.  The number of
the process is positive as a signed number, and is the same unsigned. -/
inductive Carries : UInt32 → List UInt8 → ProcEvent → Prop where
  | fork {p : ForkPayload} {trailing : List UInt8} {child : UInt32} :
      p.childPid = p.childTgid → 0 < p.childTgid.toInt → p.childTgid.toInt = child.toNat →
      Carries PROC_EVENT_FORK (p.bytes order ++ trailing) (.fork p.parentTgid.toUInt32 child)
  | exec {p : ExecPayload} {trailing : List UInt8} {pid : UInt32} :
      0 < p.processTgid.toInt → p.processTgid.toInt = pid.toNat →
      Carries PROC_EVENT_EXEC (p.bytes order ++ trailing) (.exec pid)
  | exit {p : ExitPayload} {trailing : List UInt8} {pid : UInt32} :
      p.processPid = p.processTgid → 0 < p.processTgid.toInt → p.processTgid.toInt = pid.toNat →
      Carries PROC_EVENT_EXIT (p.bytes order ++ trailing) (.exit pid)

/-! ## Reading what was laid out -/

theorem ForkPayload.exists_of_length {body : List UInt8} (h : ForkPayload.SIZE ≤ body.length) :
    ∃ (p : ForkPayload) (trailing : List UInt8), body = p.bytes order ++ trailing := by
  obtain ⟨ws, trailing, hlength, rfl⟩ := ByteOrder.exists_wire (k := 4) order h
  match ws, hlength with
  | [a, b, c, d], _ =>
    exact ⟨⟨a.toInt32, b.toInt32, c.toInt32, d.toInt32⟩, trailing, by simp [ForkPayload.bytes]⟩

theorem ExecPayload.exists_of_length {body : List UInt8} (h : ExecPayload.SIZE ≤ body.length) :
    ∃ (p : ExecPayload) (trailing : List UInt8), body = p.bytes order ++ trailing := by
  obtain ⟨ws, trailing, hlength, rfl⟩ := ByteOrder.exists_wire order (k := 2) h
  match ws, hlength with
  | [a, b], _ => exact ⟨⟨a.toInt32, b.toInt32⟩, trailing, by simp [ExecPayload.bytes]⟩

theorem ExitPayload.exists_of_length {body : List UInt8} (h : ExitPayload.SIZE ≤ body.length) :
    ∃ (p : ExitPayload) (trailing : List UInt8), body = p.bytes order ++ trailing := by
  obtain ⟨ws, trailing, hlength, rfl⟩ := ByteOrder.exists_wire order (k := 6) h
  match ws, hlength with
  | [a, b, c, d, e, f], _ =>
    exact ⟨⟨a.toInt32, b.toInt32, c, d, e.toInt32, f.toInt32⟩, trailing,
      by simp [ExitPayload.bytes]⟩

theorem ForkPayload.ofBytes_bytes (p : ForkPayload) (rest : List UInt8) :
    ForkPayload.ofBytes order (p.bytes order ++ rest) = p := by
  simp [ForkPayload.ofBytes, ForkPayload.bytes]

theorem ExecPayload.ofBytes_bytes (p : ExecPayload) (rest : List UInt8) :
    ExecPayload.ofBytes order (p.bytes order ++ rest) = p := by
  simp [ExecPayload.ofBytes, ExecPayload.bytes]

theorem ExitPayload.ofBytes_bytes (p : ExitPayload) (rest : List UInt8) :
    ExitPayload.ofBytes order (p.bytes order ++ rest) = p := by
  simp [ExitPayload.ofBytes, ExitPayload.bytes]

theorem le_length_append {bytes : List UInt8} {n : Nat} (h : bytes.length = n)
    (rest : List UInt8) : n ≤ (bytes ++ rest).length := by
  rw [List.length_append]
  omega

/-- A copy of the whole structure reads the structure. -/
theorem map_copyBytes {α : Type} {bytes : List UInt8} {n : Nat} (h : bytes.length = n)
    (rest : List UInt8) (f : List UInt8 → α) :
    (copyBytes (bytes ++ rest) n).map f = .ok (f bytes) := by
  rw [copyBytes, if_pos (le_length_append h rest), List.take_left' h]
  rfl

theorem readEvent_fork (p : ForkPayload) (rest : List UInt8) :
    readEvent order PROC_EVENT_FORK (p.bytes order ++ rest) = .ok p.events := by
  have hlength : (p.bytes order).length = ForkPayload.SIZE := ByteOrder.length_wire order _
  have hread := ForkPayload.ofBytes_bytes order p []
  rw [List.append_nil] at hread
  rw [readEvent, if_pos ⟨rfl, le_length_append hlength rest⟩, map_copyBytes hlength, hread]

theorem readEvent_exec (p : ExecPayload) (rest : List UInt8) :
    readEvent order PROC_EVENT_EXEC (p.bytes order ++ rest) = .ok p.events := by
  have hlength : (p.bytes order).length = ExecPayload.SIZE := ByteOrder.length_wire order _
  have hread := ExecPayload.ofBytes_bytes order p []
  rw [List.append_nil] at hread
  have hfork : PROC_EVENT_EXEC ≠ PROC_EVENT_FORK := by decide
  rw [readEvent, if_neg (fun h => hfork h.1), if_pos ⟨rfl, le_length_append hlength rest⟩,
    map_copyBytes hlength, hread]

theorem readEvent_exit (p : ExitPayload) (rest : List UInt8) :
    readEvent order PROC_EVENT_EXIT (p.bytes order ++ rest) = .ok p.events := by
  have hlength : (p.bytes order).length = ExitPayload.SIZE := ByteOrder.length_wire order _
  have hread := ExitPayload.ofBytes_bytes order p []
  rw [List.append_nil] at hread
  have hfork : PROC_EVENT_EXIT ≠ PROC_EVENT_FORK := by decide
  have hexec : PROC_EVENT_EXIT ≠ PROC_EVENT_EXEC := by decide
  rw [readEvent, if_neg (fun h => hfork h.1), if_neg (fun h => hexec h.1),
    if_pos ⟨rfl, le_length_append hlength rest⟩, map_copyBytes hlength, hread]

end Layout

/-! ## The event of a body -/

section Events

theorem pos_iff (x : Int32) : 0 < x ↔ 0 < x.toInt := by
  rw [Int32.lt_iff_toInt_lt, Int32.toInt_zero]

/-- The cast of a positive number keeps it. -/
theorem toInt_eq_toNat {x : Int32} (h : 0 < x.toInt) : x.toInt = x.toUInt32.toNat := by
  have hle : 0 ≤ x := by
    rw [Int32.le_iff_toInt_le, Int32.toInt_zero]
    omega
  rw [Int32.toNat_toUInt32_of_le hle]
  exact (Int.toNat_of_nonneg (by omega)).symm

theorem eq_toUInt32 {x : Int32} {pid : UInt32} (h : 0 < x.toInt) (hpid : x.toInt = pid.toNat) :
    x.toUInt32 = pid := by
  have hcast := toInt_eq_toNat h
  exact UInt32.toNat.inj (by omega)

variable {order : ByteOrder} {what : UInt32} {body : List UInt8}

/-- What a body carries is read. -/
theorem readEvent_complete {e : ProcEvent} (h : Carries order what body e) :
    readEvent order what body = .ok [e] := by
  cases h with
  | @fork p trailing child hleader hpos hchild =>
    have hcond : p.childPid = p.childTgid ∧ 0 < p.childPid := ⟨hleader, by rwa [hleader, pos_iff]⟩
    rw [readEvent_fork, ForkPayload.events, if_pos hcond, eq_toUInt32 hpos hchild]
  | @exec p trailing pid hpos hpid =>
    rw [readEvent_exec, ExecPayload.events, if_pos ((pos_iff _).mpr hpos), eq_toUInt32 hpos hpid]
  | @exit p trailing pid hleader hpos hpid =>
    rw [readEvent_exit, ExitPayload.events, if_pos ⟨hleader, (pos_iff _).mpr hpos⟩,
      eq_toUInt32 hpos hpid]

/-- At most one event, and only if it passes the filter. -/
theorem carries_of_filter {e : ProcEvent} {filter : Prop} [Decidable filter]
    (h : filter → Carries order what body e) :
    (if filter then [e] else []).length ≤ 1 ∧
      ∀ e' ∈ if filter then [e] else [], Carries order what body e' := by
  split
  · rename_i hfilter
    refine ⟨le_refl _, fun e' he' => ?_⟩
    rw [List.mem_singleton.mp he']
    exact h hfilter
  · exact ⟨Nat.zero_le 1, fun _ he' => absurd he' List.not_mem_nil⟩

/-- The parser returns at most one event, and the body carries it. -/
theorem readEvent_sound (order : ByteOrder) (what : UInt32) (body : List UInt8) :
    ∃ events, readEvent order what body = .ok events ∧ events.length ≤ 1 ∧
      ∀ e ∈ events, Carries order what body e := by
  by_cases hfork : what = PROC_EVENT_FORK ∧ ForkPayload.SIZE ≤ body.length
  · obtain ⟨rfl, hlength⟩ := hfork
    obtain ⟨p, trailing, rfl⟩ := ForkPayload.exists_of_length order hlength
    refine ⟨_, readEvent_fork order p trailing, carries_of_filter fun hleader => ?_⟩
    have hpos : 0 < p.childTgid.toInt := by
      rw [← hleader.1]
      exact (pos_iff _).mp hleader.2
    exact .fork hleader.1 hpos (toInt_eq_toNat hpos)
  by_cases hexec : what = PROC_EVENT_EXEC ∧ ExecPayload.SIZE ≤ body.length
  · obtain ⟨rfl, hlength⟩ := hexec
    obtain ⟨p, trailing, rfl⟩ := ExecPayload.exists_of_length order hlength
    refine ⟨_, readEvent_exec order p trailing, carries_of_filter fun hlive => ?_⟩
    have hpos := (pos_iff _).mp hlive
    exact .exec hpos (toInt_eq_toNat hpos)
  by_cases hexit : what = PROC_EVENT_EXIT ∧ ExitPayload.SIZE ≤ body.length
  · obtain ⟨rfl, hlength⟩ := hexit
    obtain ⟨p, trailing, rfl⟩ := ExitPayload.exists_of_length order hlength
    refine ⟨_, readEvent_exit order p trailing, carries_of_filter fun hleader => ?_⟩
    have hpos := (pos_iff _).mp hleader.2
    exact .exit hleader.1 hpos (toInt_eq_toNat hpos)
  · refine ⟨[], ?_, Nat.zero_le 1, fun _ he => absurd he List.not_mem_nil⟩
    rw [readEvent, if_neg hfork, if_neg hexec, if_neg hexit]

theorem readEvent_eq_singleton_iff (e : ProcEvent) :
    readEvent order what body = .ok [e] ↔ Carries order what body e := by
  constructor
  · intro h
    obtain ⟨events, hread, -, hall⟩ := readEvent_sound order what body
    rw [h, Except.ok.injEq] at hread
    exact hall e (hread ▸ List.mem_singleton_self e)
  · exact readEvent_complete

theorem readEvent_eq_nil_iff :
    readEvent order what body = .ok [] ↔ ∀ e, ¬ Carries order what body e := by
  constructor
  · intro h e hcarries
    rw [readEvent_complete hcarries] at h
    cases h
  · intro h
    obtain ⟨events, hread, -, hall⟩ := readEvent_sound order what body
    cases events with
    | nil => exact hread
    | cons e events => exact absurd (hall e List.mem_cons_self) (h e)

end Events

/-! ## Whole packets -/

section Packet

variable (order : ByteOrder)

theorem sliceFrom_of_le {bytes : List UInt8} {n : Nat} (h : n ≤ bytes.length) :
    sliceFrom bytes n = .ok (bytes.drop n) := if_pos h

theorem parseEvents_short {packet : List UInt8} (h : packet.length < 52) :
    parseEvents order packet = .ok [] := by
  have hshort : packet.length < NLMSGHDR_SIZE + CN_MSG_SIZE + ProcEventHeader.SIZE := h
  rw [parseEvents, if_pos hshort]
  rfl

/-- On a packet with room for the headers, the parser reads the kind behind the first two
and the body behind all three. -/
theorem parseEvents_long {packet : List UInt8} (h : 52 ≤ packet.length) :
    parseEvents order packet = readEvent order (order.wordAt packet 36) (packet.drop 52) := by
  have hpayload : sliceFrom packet NLMSGHDR_SIZE = .ok (packet.drop 16) :=
    sliceFrom_of_le (le_trans (by decide) h)
  have hevent : sliceFrom (packet.drop 16) CN_MSG_SIZE = .ok (packet.drop 36) := by
    rw [sliceFrom_of_le (by rw [List.length_drop]; unfold CN_MSG_SIZE; omega), List.drop_drop]
    rfl
  have hbody : sliceFrom (packet.drop 36) ProcEventHeader.SIZE = .ok (packet.drop 52) := by
    rw [sliceFrom_of_le (by rw [List.length_drop]; unfold ProcEventHeader.SIZE; omega),
      List.drop_drop]
    rfl
  have hcopy : copyBytes (packet.drop 36) ProcEventHeader.SIZE = .ok ((packet.drop 36).take 16) :=
    if_pos (by rw [List.length_drop]; unfold ProcEventHeader.SIZE; omega)
  have hwhat : (ProcEventHeader.ofBytes order ((packet.drop 36).take 16)).what =
      order.wordAt packet 36 := by
    simp [ProcEventHeader.ofBytes, ByteOrder.wordAt, List.take_take]
  have hlong : ¬ packet.length < NLMSGHDR_SIZE + CN_MSG_SIZE + ProcEventHeader.SIZE :=
    Nat.not_lt.mpr h
  have hlong' : ¬ (packet.drop 16).length < CN_MSG_SIZE + ProcEventHeader.SIZE := by
    rw [List.length_drop]
    unfold CN_MSG_SIZE ProcEventHeader.SIZE
    omega
  unfold parseEvents
  rw [if_neg hlong, hpayload]
  simp only [bind, Except.bind]
  rw [if_neg hlong', hevent]
  simp only [hcopy, Except.map, hbody, hwhat]

theorem parseEvents_packet {nlh cn : List UInt8} (hnlh : nlh.length = 16) (hcn : cn.length = 20)
    (header : ProcEventHeader) (body : List UInt8) :
    parseEvents order (nlh ++ (cn ++ (header.bytes order ++ body))) =
      readEvent order header.what body := by
  have hheader : (header.bytes order).length = 16 := by
    simp [ProcEventHeader.bytes]
  have hlong : 52 ≤ (nlh ++ (cn ++ (header.bytes order ++ body))).length := by
    simp only [List.length_append]
    omega
  have hevent : (nlh ++ (cn ++ (header.bytes order ++ body))).drop 36 =
      header.bytes order ++ body := by
    rw [← List.append_assoc, List.drop_left' (by rw [List.length_append]; omega)]
  have hbody : (nlh ++ (cn ++ (header.bytes order ++ body))).drop 52 = body := by
    rw [show 52 = 36 + 16 from rfl, ← List.drop_drop, hevent, List.drop_left' hheader]
  have hwhat : order.wordAt (nlh ++ (cn ++ (header.bytes order ++ body))) 36 = header.what := by
    have hzero := ByteOrder.wordAt_wire_zero order header.what [header.cpu]
      (order.toBytes 8 header.timestampNs.toNat ++ body)
    rw [← List.append_assoc] at hzero
    rw [ByteOrder.wordAt, hevent]
    exact hzero
  rw [parseEvents_long order hlong, hwhat, hbody]

end Packet

/-- The numbers of processes in an event are positive and fit into a `pid_t`.  The parent of
a fork is whatever the packet says. -/
def InRange : ProcEvent → Prop
  | .fork _ child => 1 ≤ child.toNat ∧ child.toNat ≤ 2 ^ 31 - 1
  | .exec pid => 1 ≤ pid.toNat ∧ pid.toNat ≤ 2 ^ 31 - 1
  | .exit pid => 1 ≤ pid.toNat ∧ pid.toNat ≤ 2 ^ 31 - 1

theorem inRange_of_carries {order : ByteOrder} {what : UInt32} {body : List UInt8} {e : ProcEvent}
    (h : Carries order what body e) : InRange e := by
  have hrange : ∀ {x : Int32} {pid : UInt32}, 0 < x.toInt → x.toInt = pid.toNat →
      1 ≤ pid.toNat ∧ pid.toNat ≤ 2 ^ 31 - 1 := by
    intro x pid hpos hpid
    have hlt := x.toInt_lt
    omega
  cases h with
  | fork _ hpos hchild => exact hrange hpos hchild
  | exec hpos hpid => exact hrange hpos hpid
  | exit _ hpos hpid => exact hrange hpos hpid

/-- No byte string takes the parser out of its buffer, and it returns at most one event, in
range.  On a packet with any headers, the event is the one that the body carries, and there
is none if it carries none. -/
theorem packets_decoded (order : ByteOrder) (packet : List UInt8) :
    (∃ events, parseEvents order packet = .ok events ∧ events.length ≤ 1 ∧
      ∀ e ∈ events, InRange e) ∧
    ∀ (nlh cn : List UInt8) (header : ProcEventHeader) (body : List UInt8),
      nlh.length = 16 → cn.length = 20 →
      packet = nlh ++ (cn ++ (header.bytes order ++ body)) →
      (∀ e, parseEvents order packet = .ok [e] ↔ Carries order header.what body e) ∧
      (parseEvents order packet = .ok [] ↔ ∀ e, ¬ Carries order header.what body e) := by
  constructor
  · by_cases hlong : 52 ≤ packet.length
    · rw [parseEvents_long order hlong]
      obtain ⟨events, hread, hone, hall⟩ := readEvent_sound order (order.wordAt packet 36)
        (packet.drop 52)
      exact ⟨events, hread, hone, fun e he => inRange_of_carries (hall e he)⟩
    · exact ⟨[], parseEvents_short order (Nat.not_le.mp hlong), Nat.zero_le 1,
        fun _ he => absurd he List.not_mem_nil⟩
  · intro nlh cn header body hnlh hcn hpacket
    rw [hpacket, parseEvents_packet order hnlh hcn]
    exact ⟨readEvent_eq_singleton_iff, readEvent_eq_nil_iff⟩

/-- The exec of process 300, on a little-endian machine. -/
theorem packets_decoded_exec :
    parseEvents .little (List.replicate 16 0 ++ (List.replicate 20 0 ++
      (ProcEventHeader.bytes .little ⟨PROC_EVENT_EXEC, 0, 0⟩ ++
        (ExecPayload.bytes .little ⟨300, 300⟩ ++ [])))) = .ok [.exec 300] :=
  (((packets_decoded .little _).2 _ _ _ _ (by simp) (by simp) rfl).1 (.exec 300)).mpr
    (.exec (by decide) (by decide))

end BsslRam.ProcConnector
