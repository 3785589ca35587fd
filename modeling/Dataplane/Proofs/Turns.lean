import Dataplane.Proofs.Loops

/-!
# One turn of a loop

What the program does between two waits, in terms of the histories of the ring:
the completion it takes, and the requests it makes because of it.
-/

namespace Dataplane.Proofs

open ProofSupport Model Ledger

variable {σ : Type} {api : Ssl σ}

/-! ## The head of the loop -/

def headStatus (prog : Program σ) (running : Bool) (status : Status) (ret : Int)
    (op : Option OpId) : Status :=
  if ret < 0 then .exited ret op
  else match prog with
    | .forwarderRun _ _ => status
    | _ => if running then status else .exited ret op

theorem atLoopHead_eq (s : LoopState σ) (ret : Int) (op : Option OpId) :
    atLoopHead s ret op =
      { s with status := headStatus s.prog s.running s.status ret op } := by
  obtain ⟨uring, prog, running, status⟩ := s
  unfold atLoopHead headStatus
  by_cases hret : ret < 0
  · simp only [if_pos hret]
  · simp only [if_neg hret]
    cases prog <;> cases running <;> rfl

theorem LoopInv.of_waiting {s : LoopState σ} (h : LoopInv s) (hs : s.status = .waiting) :
    Inv s.uring 0 0 := by
  apply h.ok
  rw [hs]
  rfl

theorem step_ok {s : LoopState σ} {e : LoopEvent} (h : (s.step api e).status.ok = true) :
    s.status.ok = true := by
  cases hstatus : s.status with
  | waiting => rfl
  | exited ret op =>
      revert h
      cases e <;> simp [LoopState.step, LoopState.wake, hstatus]

/-! ## What the kernel posts -/

/-- From `ctx` to `ctx'` the kernel posts the completion `c`; with a successful
outgoing request it has sent what it found in memory. -/
structure Posted (ctx ctx' : IouringCtx) (c : Cqe) : Prop where
  req : c.req ∈ ctx.ring.active
  last : c.req.opcode.outgoing = true → c.flags.more = false
  cq : ctx'.ring.cq = ctx.ring.cq ++ [c]
  active : ctx'.ring.active = if c.flags.more then ctx.ring.active else ctx.ring.active.erase c.req
  sq : ctx'.ring.sq = ctx.ring.sq
  seen : ctx'.ring.seen = ctx.ring.seen
  queued : ctx'.ring.queued = ctx.ring.queued
  wire : ctx'.ring.wire = ctx.ring.wire ++
    if c.req.opcode.outgoing = true ∧ 0 ≤ c.res then
      [⟨c.req, ctx.load c.req.msgName c.req.msgNamelen, ctx.load c.req.buffer c.req.len⟩] else []

theorem perform_ring {ctx : IouringCtx} {r : Sqe} (hcode : r.opcode ≠ .recvmsgMultishot)
    (res : Int) (data name : Bytes) : (ctx.perform r res data name).ring =
      { ctx.ring with wire := ctx.ring.wire ++ if r.opcode.outgoing = true ∧ 0 ≤ res then
        [⟨r, ctx.load r.msgName r.msgNamelen, ctx.load r.buffer r.len⟩] else [] } := by
  unfold IouringCtx.perform
  by_cases hres : res < 0
  · rw [if_pos hres, if_neg (by omega), List.append_nil]
  · rw [if_neg hres]
    cases hopcode : r.opcode with
    | read => simp [Opcode.outgoing]
    | recvmsg => simp [Opcode.outgoing]
    | write => simp [Opcode.outgoing, Int.not_lt.mp hres]
    | sendmsg => simp [Opcode.outgoing, Int.not_lt.mp hres]
    | recvmsgMultishot => exact absurd hopcode hcode

theorem complete_posted {ctx : IouringCtx} {op : OpId} {r : Sqe}
    (hr : ctx.inFlight op false = some r) (res : Int) (data name : Bytes) (tag : Nat) :
    Posted ctx (ctx.kernel (.complete op res data name tag)) ⟨r, res, ⟨false, false, 0⟩,
      IouringCtx.arrived r res data, if r.opcode.outgoing then r.tag else tag⟩ := by
  obtain ⟨hactive, -, hmulti⟩ := mem_of_inFlight hr
  have hcode : r.opcode ≠ .recvmsgMultishot := by simpa using hmulti
  have hring : (ctx.perform r res data name).ring = _ := perform_ring hcode res data name
  simp only [IouringCtx.kernel, hr, IouringCtx.post, hring]
  exact ⟨hactive, fun _ => rfl, rfl, rfl, rfl, rfl, rfl, rfl⟩

theorem recv_posted {ctx : IouringCtx} {op : OpId} {r : Sqe} {bid : Nat}
    (hr : ctx.inFlight op true = some r) (hbid : bid ∈ ctx.br) (res : Int) (data : Bytes)
    (more : Bool) (tag : Nat) :
    Posted ctx (ctx.kernel (.recv op bid res data more tag))
      ⟨r, res, ⟨true, more, bid⟩, data.take bufSize, tag⟩ := by
  obtain ⟨hactive, -, hmulti⟩ := mem_of_inFlight hr
  have hcode : r.opcode = .recvmsgMultishot := by simpa using hmulti
  simp only [IouringCtx.kernel, hr, if_pos hbid, IouringCtx.post]
  exact ⟨hactive, by simp [hcode, Opcode.outgoing], rfl, rfl, rfl, rfl, rfl,
    by simp [hcode, Opcode.outgoing]⟩

theorem fail_posted {ctx : IouringCtx} {op : OpId} {r : Sqe} {res : Int}
    (hr : ctx.inFlight op true = some r) (hres : res < 0) :
    Posted ctx (ctx.kernel (.fail op res)) ⟨r, res, ⟨false, false, 0⟩, [], 0⟩ := by
  obtain ⟨hactive, -, hmulti⟩ := mem_of_inFlight hr
  have hcode : r.opcode = .recvmsgMultishot := by simpa using hmulti
  simp only [IouringCtx.kernel, hr, if_pos hres, IouringCtx.post]
  exact ⟨hactive, by simp [hcode, Opcode.outgoing], rfl, rfl, rfl, rfl, rfl,
    by simp [hcode, Opcode.outgoing]⟩

/-- Whatever the kernel does, it posts one completion or none. -/
theorem kernel_posted (ctx : IouringCtx) (e : KEvent) :
    ctx.kernel e = ctx ∨ ∃ c, Posted ctx (ctx.kernel e) c := by
  cases e with
  | complete op res data name tag =>
      cases hr : ctx.inFlight op false with
      | none => exact .inl (by simp [IouringCtx.kernel, hr])
      | some r => exact .inr ⟨_, complete_posted hr res data name tag⟩
  | recv op bid res data more tag =>
      cases hr : ctx.inFlight op true with
      | none => exact .inl (by simp [IouringCtx.kernel, hr])
      | some r =>
          by_cases hbid : bid ∈ ctx.br
          · exact .inr ⟨_, recv_posted hr hbid res data more tag⟩
          · exact .inl (by simp [IouringCtx.kernel, hr, hbid])
  | fail op res =>
      cases hr : ctx.inFlight op true with
      | none => exact .inl (by simp [IouringCtx.kernel, hr])
      | some r =>
          by_cases hres : res < 0
          · exact .inr ⟨_, fail_posted hr hres⟩
          · exact .inl (by simp [IouringCtx.kernel, hr, hres])

theorem kernel_histories (ctx : IouringCtx) (e : KEvent) :
    (ctx.kernel e).ring.seen = ctx.ring.seen ∧ (ctx.kernel e).ring.queued = ctx.ring.queued := by
  rcases kernel_posted ctx e with heq | ⟨c, hpost⟩
  · rw [heq]
    exact ⟨rfl, rfl⟩
  · exact ⟨hpost.seen, hpost.queued⟩

/-! ## A turn -/

/-- From `s` to `s'` the program takes the completion `c`, leaves `cq`, and
queues the receives `ins` and the outgoing requests `outs`. -/
structure Took (s s' : LoopState σ) (c : Cqe) (cq : List Cqe) (ins outs : List Sqe) : Prop where
  cq : s'.uring.ring.cq = cq
  seen : s'.uring.ring.seen = s.uring.ring.seen ++ [c]
  queued : s'.uring.ring.queued = s.uring.ring.queued ++ (ins ++ outs)
  inflight : s'.uring.ring.inflight = s.uring.ring.inflight ++ (ins ++ outs)
  wire : s'.uring.ring.wire = s.uring.ring.wire
  incoming : ∀ r ∈ ins, r.opcode.outgoing = false

theorem Took.of_effect {s s' : LoopState σ} {c : Cqe} {cq : List Cqe} {ins outs : List Sqe}
    (heff : Effect (s.uring.iouringCqeSeen c cq) s'.uring (ins ++ outs))
    (hins : ∀ r ∈ ins, r.opcode.outgoing = false) : Took s s' c cq ins outs where
  cq := heff.cq
  seen := heff.seen
  queued := heff.queued
  inflight := heff.inflight
  wire := heff.wire
  incoming := hins

/-- A body makes one request like `P` of the packet of `c`, and then `Q` holds of
the program. -/
def BodySpec (api : Ssl σ) (prog : Program σ) (c : Cqe) (P : Sqe → Prop)
    (Q : Program σ → Prop) : Prop :=
  ∀ {ctx ctx' : IouringCtx} {held got : Multiset OpId} {taken idx : Multiset Nat} {ret : Int}
    {rest : Option OpId} {prog' : Program σ}, Inv ctx (got + held) (idx + taken) →
    Received ctx c c.req.userData got idx → ctx.tag = c.tag →
    prog.body api ctx c.req.userData = (ret, rest, ctx', prog') →
    ∃ rs, Handled ctx ctx' held taken ret rs P ∧ (ret = 0 → Q prog')

/-- What a turn makes of the completion `c`: nothing of the end of an outgoing
request, and one request like `P` of a packet, unless the loop stops. -/
structure Turn (P : Sqe → Prop) (Q : Program σ → Prop) (held : Multiset OpId)
    (taken : Multiset Nat) (s s' : LoopState σ) (c : Cqe) (outs : List Sqe) : Prop where
  single : outs.length ≤ 1
  entry : ∀ r ∈ outs, P r
  outgoing : c.req.opcode.outgoing = true → outs = [] ∧ s'.prog = s.prog
  ok : s'.status.ok = true → 0 ≤ c.res
  done : s'.status.ok = true → c.req.opcode.outgoing = false → outs ≠ [] ∧ Q s'.prog
  inv : s'.status.ok = true → Inv s'.uring held taken

theorem Inv.turn (api : Ssl σ) {s : LoopState σ} {held : Multiset OpId} {taken : Multiset Nat}
    (h : Inv s.uring held taken) {c : Cqe} {cq : List Cqe} (hcq : s.uring.ring.cq = c :: cq)
    {P : Sqe → Prop} {Q : Program σ → Prop}
    (hspec : c.req.opcode.outgoing = false → BodySpec api s.prog c P Q) :
    ∃ ins outs, Took s (takeCqe api s c cq) c cq ins outs ∧
      Turn P Q held taken s (takeCqe api s c cq) c outs := by
  unfold takeCqe
  rcases hstep : (s.uring.iouringCqeSeen c cq).waitForRecvBody c with ⟨step, ctx⟩
  have hwaited := h.wait hcq hstep
  cases hwaited with
  | again hres hout heff hinv =>
      refine ⟨[], [], .of_effect heff (by simp), by simp, by simp, fun _ => ⟨rfl, rfl⟩,
        fun _ => hres, fun _ hin => ?_, fun _ => hinv⟩
      rw [hin] at hout
      cases hout
  | null rs heff hin hstop =>
      by_cases hout : c.req.opcode.outgoing = true
      all_goals
        refine ⟨rs, [], .of_effect (by simpa using heff) fun r hr => (hin r hr).outgoing, by simp,
          by simp, fun _ => ⟨rfl, rfl⟩, fun hok => ?_, fun hok _ => ?_, fun hok => ?_⟩
        all_goals simp [Status.ok] at hok
  | recv rs got idx hres hin heff hrs hinv hrecv =>
      rcases hbody : s.prog.body api ctx c.req.userData with ⟨ret, rest, ctx', prog⟩
      obtain ⟨rs', hh, hq⟩ := hspec hin hinv hrecv heff.tag hbody
      simp only [hbody, atLoopHead_eq]
      refine ⟨rs, rs', .of_effect (heff.trans hh.effect) fun r hr => (hrs r hr).outgoing,
        hh.single, hh.entry, fun hout => ?_, fun _ => hres, fun hok _ => ?_, fun hok => ?_⟩
      · rw [hin] at hout
        cases hout
      all_goals rcases hh.done with ⟨hret, hne, hinv'⟩ | ⟨hret, -⟩
      · exact ⟨hne, hq hret⟩
      · simp [headStatus, hret, Status.ok] at hok
      · exact hinv'
      · simp [headStatus, hret, Status.ok] at hok

end Dataplane.Proofs
