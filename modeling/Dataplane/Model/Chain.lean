import Dataplane.Model.Session

/-!
# A chain of forwarders

Node 0 of a chain is an edge client, the nodes behind it are forwarders and the
last one is an edge server.  A packet goes up, from the client to the server, or
down: on its way `w` it is at node `hop w 0` first, then at `hop w 1` and so on,
and link `j` of the way leads from its `j`-th node to the next one.

The network may delay and lose datagrams but keeps their order on a link, and
the kernel carries out the sends on a socket in the order they were submitted
in.  An event that is not possible changes nothing.
-/

namespace Dataplane.Model

open ProofSupport

variable {σ : Type}

inductive Way
  | up
  | down
  deriving DecidableEq, Repr

def Way.back : Way → Way
  | .up => .down
  | .down => .up

/-- A chain with `name w j` for the address of the socket at which link `j` of
the way `w` ends. -/
structure Chain where
  forwarders : Nat
  name : Way → Nat → Bytes

def Chain.hop (chain : Chain) : Way → Nat → Nat
  | .up, j => j
  | .down, j => chain.forwarders + 1 - j

/-- The socket through which packets leave a node on a way.  They come in through
the socket of the way back. -/
def Program.socket : Program σ → Way → Int
  | .tunUdpRun conn _, _ | .tunUdpRunZero conn _, _ => conn.udpFd
  | .forwarderRun _ outbound, .up => outbound.udpFd
  | .forwarderRun inbound _, .down => inbound.udpFd

def Program.tun : Program σ → Option Int
  | .tunUdpRun _ tunFd | .tunUdpRunZero _ tunFd => some tunFd
  | .forwarderRun _ _ => none

/-- The nodes with what is between them: `flight w j` are the datagrams on link
`j`, oldest first.  `reads` and `lost` are histories of the packets read from the
TUN device at the beginning of a way, numbered as they come, and of those whose
datagrams the network has lost. -/
structure ChainState (σ : Type) where
  node : Nat → LoopState σ
  flight : Way → Nat → List (Nat × Bytes)
  reads : Way → List (Nat × Bytes)
  lost : Way → List Nat

/-- What happens in a chain: a loop makes a step or its kernel acts, a packet is
read from the TUN device at the beginning of a way, the oldest datagram on a
link reaches a receive of `op`, which puts it into the slot `bid`, or the `n`-th
oldest gets lost. -/
inductive ChainEvent
  | loop (i : Nat) (e : LoopEvent)
  | read (w : Way) (op : OpId) (data : Bytes)
  | deliver (w : Way) (j : Nat) (op : OpId) (bid : Nat) (pad : Bytes) (more : Bool)
  | lose (w : Way) (j n : Nat)

/-- What a kernel may do that brings no packet: sends are carried out in order,
and a read may fail. -/
def IouringCtx.allows (ctx : IouringCtx) : LoopEvent → Bool
  | .kernel (.complete op res _ _ _) =>
      match ctx.inFlight op false with
      | none => true
      | some r => match r.opcode with
        | .write => true
        | .sendmsg =>
            ctx.ring.active.find? (fun r' => r'.opcode == .sendmsg && r'.fd == r.fd) == some r
        | _ => decide (res < 0)
  | .kernel (.recv _ _ _ _ _ _) => false
  | _ => true

/-- The datagrams for the address `name` that were sent on the socket `fd`
between `ctx` and `ctx'`. -/
def sentBetween (ctx ctx' : IouringCtx) (fd : Int) (name : Bytes) : List (Nat × Bytes) :=
  ((ctx'.ring.wire.drop ctx.ring.wire.length).filter fun t =>
    t.req.opcode == .sendmsg && t.req.fd == fd && t.name == name).map fun t => (t.req.tag, t.data)

namespace ChainState

/-- Node `i` makes a step, and what it sends goes onto its links. -/
def act (api : Ssl σ) (chain : Chain) (s : ChainState σ) (i : Nat) (e : LoopEvent) :
    ChainState σ :=
  let node := (s.node i).step api e
  { s with
    node := Function.update s.node i node
    flight := fun w j =>
      if j ≤ chain.forwarders ∧ chain.hop w j = i then
        s.flight w j ++ sentBetween (s.node i).uring node.uring ((s.node i).prog.socket w)
          (chain.name w j)
      else s.flight w j }

def setFlight (s : ChainState σ) (w : Way) (j : Nat) (ds : List (Nat × Bytes)) : ChainState σ :=
  { s with flight := Function.update s.flight w (Function.update (s.flight w) j ds) }

def step (api : Ssl σ) (chain : Chain) (s : ChainState σ) : ChainEvent → ChainState σ
  | .loop i e =>
      if i ≤ chain.forwarders + 1 ∧ (s.node i).uring.allows e then s.act api chain i e else s
  | .read w op data =>
      let i := chain.hop w 0
      match (s.node i).uring.inFlight op false with
      | none => s
      | some r =>
          let packet := data.take r.len
          if r.opcode = .read ∧ (s.node i).prog.tun = some r.fd ∧ 1 ≤ packet.length ∧
              packet.length ≤ 1400 then
            let number := (s.reads w).length
            let s := s.act api chain i (.kernel (.complete op packet.length packet [] number))
            { s with reads := Function.update s.reads w (s.reads w ++ [(number, packet)]) }
          else s
  | .deliver w j op bid pad more =>
      let i := chain.hop w (j + 1)
      let ctx := (s.node i).uring
      let name := chain.name w.back (chain.forwarders - j)
      match s.flight w j, ctx.inFlight op true with
      | (number, datagram) :: rest, some r =>
          if j ≤ chain.forwarders ∧ r.fd = (s.node i).prog.socket w.back ∧ bid ∈ ctx.br ∧
              name.length + pad.length = sizeofSockaddrStorage then
            let out := recvmsgOut (ctx.ops op).msg.msgNamelen name pad datagram
            (s.act api chain i (.kernel (.recv op bid out.length out more number))).setFlight w j
              rest
          else s
      | _, _ => s
  | .lose w j n =>
      match (s.flight w j)[n]? with
      | none => s
      | some (number, _) =>
          if j ≤ chain.forwarders then
            { s.setFlight w j ((s.flight w j).eraseIdx n) with
              lost := Function.update s.lost w (s.lost w ++ [number]) }
          else s

def run (api : Ssl σ) (chain : Chain) : ChainState σ → List ChainEvent → ChainState σ :=
  Execution.run (step api chain)

def start (node : Nat → LoopState σ) : ChainState σ :=
    ⟨node, fun _ _ => [], fun _ => [], fun _ => []⟩

/-- The packets submitted for writing to the TUN device at the end of a way. -/
def written (chain : Chain) (s : ChainState σ) (w : Way) : List (Nat × Bytes) :=
  let last := s.node (chain.hop w (chain.forwarders + 1))
  (last.uring.ring.queued.filter fun r => r.opcode == .write && last.prog.tun == some r.fd).map
    fun r => (r.tag, r.data)

end ChainState

end Dataplane.Model
