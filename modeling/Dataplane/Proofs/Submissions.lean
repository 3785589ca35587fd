import Dataplane.Proofs.Specs

/-!
# What a failed submission leaves behind

The five functions that make a request reserve an entry, fill it, and then call
`io_uring_submit`.  An entry that was reserved stays in the submission queue
when that call fails.
-/

namespace Dataplane.Model

inductive Submission
  | tunRead
  | tunWrite (data : Option ProofSupport.Bytes) (len : Int)
  | udpRecv
  | udpSend (addr : ProofSupport.Bytes) (addrLen : Nat) (data : Option ProofSupport.Bytes)
      (len : Int)
  | multishotRecvmsg

namespace Submission

def call (f : Submission) (ctx : IouringCtx) (op : OpId) : Int × IouringCtx :=
  match f with
  | .tunRead => ctx.iouringSubmitTunRead op
  | .tunWrite data len => ctx.iouringSubmitTunWrite op data len
  | .udpRecv => ctx.iouringSubmitUdpRecv op
  | .udpSend addr addrLen data len => ctx.iouringSubmitUdpSend (some op) addr addrLen data len
  | .multishotRecvmsg => ctx.iouringSubmitMultishotRecvmsgOp op

def Accepts (f : Submission) (ctx : IouringCtx) (op : OpId) : Prop :=
  match f with
  | .tunWrite _ len | .udpSend _ _ _ len =>
      (0 < len ∧ 0 ≤ (ctx.ops op).fd) ∧ len ≤ bufSize
  | _ => True

def Takes (f : Submission) (ret : Int) : Prop :=
  match f with
  | .udpSend _ _ _ _ => 0 < ret
  | _ => 0 ≤ ret

end Submission

def IoUring.refs (ring : IoUring) (op : OpId) : Nat :=
  ring.inflight.countP fun r => r.userData == op

/-- After a failed call nothing in the ring refers to the op, after a successful
one exactly one request does. -/
def NoTrace (f : Submission) (ctx : IouringCtx) (op : OpId) : Prop :=
  let out := f.call ctx op
  (out.1 < 0 → out.2.ring.refs op = 0) ∧ (out.1 = 0 → out.2.ring.refs op = 1)

end Dataplane.Model

namespace Dataplane.Proofs

open ProofSupport Model

/-! ## How a call ends -/

/-- What a call does to the ring: it refuses before an entry is reserved, or it
fills the entry `r` for the op and submits it. -/
inductive Calls (f : Submission) (ctx : IouringCtx) (op : OpId) : Int × IouringCtx → Prop
  | refused {ctx' : IouringCtx} : ¬ (f.Accepts ctx op ∧ ctx.ring.sqeFree 0 = true) →
      ctx'.ring.inflight = ctx.ring.inflight → Calls f ctx op (-1, ctx')
  | submitted {ctx' : IouringCtx} {ret : Int} (r : Sqe) : f.Accepts ctx op →
      ctx.ring.sqeFree 0 = true → r.userData = op →
      ctx'.ring.inflight = ctx.ring.inflight ++ [r] →
      (ret = 0 ∧ f.Takes (ctx.ring.submits 0) ∨ ret = -1 ∧ ¬ f.Takes (ctx.ring.submits 0)) →
      Calls f ctx op (ret, ctx')

theorem getSqe_calls (f : Submission) (ctx : IouringCtx) (op : OpId) {start : IouringCtx}
    {k : IouringCtx → Int × IouringCtx} (hstart : start.ring = ctx.ring)
    (hk : ctx.ring.sqeFree 0 = true → Calls f ctx op (k start.ioUringGetSqe.2)) :
    Calls f ctx op (match start.ioUringGetSqe with
      | (false, ctx) => (-1, ctx)
      | (true, ctx) => k ctx) := by
  cases hfree : ctx.ring.sqeFree 0 with
  | false =>
      have heq : start.ioUringGetSqe = (false, start.ioUringGetSqe.2) :=
        Prod.ext (by rw [← hfree, ← hstart]; rfl) rfl
      rw [heq]
      apply Calls.refused
      · simp [hfree]
      · rw [← hstart]
        rfl
  | true =>
      have heq : start.ioUringGetSqe = (true, start.ioUringGetSqe.2) :=
        Prod.ext (by rw [← hfree, ← hstart]; rfl) rfl
      rw [heq]
      exact hk hfree

variable {ctx : IouringCtx} {op : OpId}

theorem submit_calls (f : Submission) (hacc : f.Accepts ctx op)
    (hfree : ctx.ring.sqeFree 0 = true) {mid : IouringCtx}
    (hmid : mid.ring = ctx.ioUringGetSqe.2.ring) {r : Sqe} (hr : r.userData = op) {ret : Int}
    (hret : ret = 0 ∧ f.Takes (ctx.ring.submits 0) ∨ ret = -1 ∧ ¬ f.Takes (ctx.ring.submits 0)) :
    Calls f ctx op (ret, (mid.ioUringPrep r).ioUringSubmit.2) := by
  apply Calls.submitted r hacc hfree hr _ hret
  simp [IouringCtx.ioUringSubmit, IouringCtx.ioUringPrep, IouringCtx.ioUringGetSqe, hmid,
    IoUring.inflight]

theorem prep_submits {mid : IouringCtx} (hmid : mid.ring = ctx.ioUringGetSqe.2.ring) (r : Sqe) :
    (mid.ioUringPrep r).ioUringSubmit.1 = ctx.ring.submits 0 := by
  simp [IouringCtx.ioUringSubmit, IouringCtx.ioUringPrep, IouringCtx.ioUringGetSqe, hmid]

theorem submitChecked_calls (f : Submission) (hacc : f.Accepts ctx op)
    (hfree : ctx.ring.sqeFree 0 = true) (htakes : ∀ ret, f.Takes ret ↔ 0 ≤ ret) {mid : IouringCtx}
    (hmid : mid.ring = ctx.ioUringGetSqe.2.ring) {r : Sqe} (hr : r.userData = op) :
    Calls f ctx op (mid.ioUringPrep r).submitChecked := by
  unfold IouringCtx.submitChecked
  dsimp only
  rw [prep_submits hmid]
  split
  · apply submit_calls f hacc hfree hmid hr
    right
    exact ⟨rfl, by rw [htakes]; omega⟩
  · apply submit_calls f hacc hfree hmid hr
    left
    exact ⟨rfl, by rw [htakes]; omega⟩

theorem submitNonzero_calls (f : Submission) (hacc : f.Accepts ctx op)
    (hfree : ctx.ring.sqeFree 0 = true) (htakes : ∀ ret, f.Takes ret ↔ 0 < ret) {mid : IouringCtx}
    (hmid : mid.ring = ctx.ioUringGetSqe.2.ring) {r : Sqe} (hr : r.userData = op) :
    Calls f ctx op (mid.ioUringPrep r).submitNonzero := by
  unfold IouringCtx.submitNonzero
  dsimp only
  rw [prep_submits hmid]
  split
  · apply submit_calls f hacc hfree hmid hr
    right
    exact ⟨rfl, by rw [htakes]; omega⟩
  split
  · apply submit_calls f hacc hfree hmid hr
    right
    exact ⟨rfl, by rw [htakes]; omega⟩
  · apply submit_calls f hacc hfree hmid hr
    left
    exact ⟨rfl, by rw [htakes]; omega⟩

theorem copyIn_ring (ctx : IouringCtx) (op : OpId) (data : Option Bytes) (len : Int) :
    (ctx.copyIn op data len).ring = ctx.ring := by
  cases data with
  | none => rfl
  | some bytes => simp [IouringCtx.copyIn]

theorem tunRead_calls : Calls .tunRead ctx op (ctx.iouringSubmitTunRead op) := by
  unfold IouringCtx.iouringSubmitTunRead
  apply getSqe_calls .tunRead ctx op rfl
  intro hfree
  apply submitChecked_calls .tunRead trivial hfree (fun _ => Iff.rfl)
  · rfl
  · rfl

theorem multishotRecvmsg_calls :
    Calls .multishotRecvmsg ctx op (ctx.iouringSubmitMultishotRecvmsgOp op) := by
  unfold IouringCtx.iouringSubmitMultishotRecvmsgOp
  apply getSqe_calls .multishotRecvmsg ctx op (assert_ring ctx (ctx.ops op).isMulti)
  intro hfree
  apply submitChecked_calls .multishotRecvmsg trivial hfree (fun _ => Iff.rfl)
  · rfl
  · rfl

theorem udpRecv_calls : Calls .udpRecv ctx op (ctx.iouringSubmitUdpRecv op) := by
  unfold IouringCtx.iouringSubmitUdpRecv
  dsimp only
  apply getSqe_calls .udpRecv ctx op
  · rw [assert_ring, assert_ring]
  intro hfree
  apply submitChecked_calls .udpRecv trivial hfree (fun _ => Iff.rfl)
  · rfl
  · rfl

theorem tunWrite_calls (data : Option Bytes) (len : Int) :
    Calls (.tunWrite data len) ctx op (ctx.iouringSubmitTunWrite op data len) := by
  unfold IouringCtx.iouringSubmitTunWrite
  by_cases hargs : len ≤ 0 ∨ (ctx.ops op).fd < 0
  · rw [if_pos hargs]
    apply Calls.refused _ rfl
    rintro ⟨⟨⟨hpos, hfd⟩, -⟩, -⟩
    omega
  rw [if_neg hargs]
  by_cases hlong : (bufSize : Int) < len
  · simp only [if_pos hlong]
    apply Calls.refused
    · rintro ⟨⟨-, hle⟩, -⟩
      omega
    · rw [assert_ring]
  simp only [if_neg hlong]
  apply getSqe_calls (.tunWrite data len) ctx op (assert_ring ctx _)
  intro hfree
  have hacc : (Submission.tunWrite data len).Accepts ctx op := ⟨by omega, by omega⟩
  apply submitChecked_calls _ hacc hfree (fun _ => Iff.rfl) _ rfl
  simp only [assert_ring, copyIn_ring]
  rfl

theorem udpSend_calls (addr : Bytes) (addrLen : Nat) (data : Option Bytes) (len : Int) :
    Calls (.udpSend addr addrLen data len) ctx op
      (ctx.iouringSubmitUdpSend (some op) addr addrLen data len) := by
  unfold IouringCtx.iouringSubmitUdpSend
  dsimp only
  by_cases hargs : len ≤ 0 ∨ (ctx.ops op).fd < 0
  · rw [if_pos hargs]
    apply Calls.refused _ rfl
    rintro ⟨⟨⟨hpos, hfd⟩, -⟩, -⟩
    omega
  rw [if_neg hargs]
  by_cases hlong : (bufSize : Int) < len
  · rw [if_pos hlong]
    apply Calls.refused _ rfl
    rintro ⟨⟨-, hle⟩, -⟩
    omega
  rw [if_neg hlong]
  apply getSqe_calls (.udpSend addr addrLen data len) ctx op rfl
  intro hfree
  have hacc : (Submission.udpSend addr addrLen data len).Accepts ctx op := ⟨by omega, by omega⟩
  apply submitNonzero_calls _ hacc hfree (fun _ => Iff.rfl) _ rfl
  simp only [modOp_ring, store_ring, assert_ring, copyIn_ring]

theorem submission_calls (f : Submission) (ctx : IouringCtx) (op : OpId) :
    Calls f ctx op (f.call ctx op) := by
  cases f with
  | tunRead => exact tunRead_calls
  | tunWrite data len => exact tunWrite_calls data len
  | udpRecv => exact udpRecv_calls
  | udpSend addr addrLen data len => exact udpSend_calls addr addrLen data len
  | multishotRecvmsg => exact multishotRecvmsg_calls

/-- A call succeeds exactly when its arguments pass, there is an entry for it and
`io_uring_submit` answers as it should. -/
theorem Calls.succeeds_iff {f : Submission} {out : Int × IouringCtx} (h : Calls f ctx op out) :
    0 ≤ out.1 ↔ f.Accepts ctx op ∧ ctx.ring.sqeFree 0 = true ∧ f.Takes (ctx.ring.submits 0) := by
  cases h with
  | refused hnot _ =>
      apply iff_of_false (by simp)
      rintro ⟨hacc, hfree, -⟩
      exact hnot ⟨hacc, hfree⟩
  | submitted r hacc hfree _ _ hans =>
      rcases hans with ⟨rfl, htakes⟩ | ⟨rfl, hnot⟩
      · exact iff_of_true (Int.le_refl 0) ⟨hacc, hfree, htakes⟩
      · exact iff_of_false (by simp) fun h => hnot h.2.2

theorem Calls.ret_cases {f : Submission} {out : Int × IouringCtx} (h : Calls f ctx op out) :
    out.1 = 0 ∨ out.1 = -1 := by
  cases h with
  | refused _ _ => exact .inr rfl
  | submitted r _ _ _ _ hans => exact hans.imp And.left And.left

/-! ## The op after the call -/

theorem refs_append {ring ring' : IoUring} {r : Sqe} (h : ring'.inflight = ring.inflight ++ [r]) :
    ring'.refs r.userData = ring.refs r.userData + 1 := by
  simp [IoUring.refs, h, List.countP_append]

/-- A failed call leaves no trace of the op, and a successful one exactly one
request, if and only if nothing referred to the op before and the call does not
reserve an entry that `io_uring_submit` then does not accept. -/
theorem noTrace_iff (f : Submission) (ctx : IouringCtx) (op : OpId) :
    NoTrace f ctx op ↔ ctx.ring.refs op = 0 ∧
      (f.Accepts ctx op → ctx.ring.sqeFree 0 = true → f.Takes (ctx.ring.submits 0)) := by
  have hcalls := submission_calls f ctx op
  unfold NoTrace
  dsimp only
  generalize f.call ctx op = out at *
  cases hcalls with
  | @refused ctx' hnot hinflight =>
      have hrefs : ctx'.ring.refs op = ctx.ring.refs op := by
        rw [IoUring.refs, hinflight, IoUring.refs]
      simp only [hrefs]
      constructor
      · intro htrace
        exact ⟨htrace.1 (by omega), fun hacc hfree => absurd ⟨hacc, hfree⟩ hnot⟩
      · intro h
        exact ⟨fun _ => h.1, fun hret => by omega⟩
  | submitted r hacc hfree huser hinflight hans =>
      subst huser
      have hrefs := refs_append hinflight
      rcases hans with ⟨rfl, htakes⟩ | ⟨rfl, hnot⟩
      · constructor
        · intro htrace
          have hone := htrace.2 rfl
          dsimp only at hone
          exact ⟨by omega, fun _ _ => htakes⟩
        · intro h
          exact ⟨fun hret => absurd hret (by simp), fun _ => by simp only [hrefs, h.1]⟩
      · constructor
        · intro htrace
          have hnone := htrace.1 (by omega)
          dsimp only at hnone
          omega
        · intro h
          exact absurd (h.2 hacc hfree) hnot

/-! ## An entry left behind -/

/-- A ring with two ops whose `io_uring_submit` answers `ret`. -/
def answeringRing (ret : Int) : IouringCtx :=
  .iouringInit ⟨8, 8, 1, 1, 2, 0, 0⟩ (fun _ => true) fun _ => ret

/-- `io_uring_submit` fails with `-EAGAIN`, and the read of an op that
`io_op_alloc` has set up for it stays in the submission queue. -/
theorem failedRead_not_noTrace : ∃ op ctx,
    (answeringRing (-11)).ioOpAlloc .tunRead 5 false = (some op, ctx) ∧
      ¬ NoTrace .tunRead ctx op := by
  refine ⟨_, _, rfl, fun htrace => ?_⟩
  have hnone := htrace.1 (by decide)
  revert hnone
  decide

end Dataplane.Proofs
