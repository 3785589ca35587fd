import Dataplane.Proofs.Invariant

/-!
# Completions

The kernel keeps the ownership invariant whatever it does, and taking a
completion puts into the program's hands what the completion gave back.
-/

namespace Dataplane.Proofs

open ProofSupport Model Ledger

variable {ctx : IouringCtx} {held : Multiset OpId} {taken : Multiset Nat}

/-! ## The kernel writes memory -/

theorem Inv.slots_nodup (h : Inv ctx held taken) : ((ctx.br : Multiset Nat) +
    (ctx.ring.selected + (taken +
      owned (fun op => slots (ctx.ops op)) (held + ctx.ring.requests)))).Nodup := by
  rw [h.slotLedger]
  exact Multiset.nodup_range _

theorem Inv.taken_fresh {i : Nat} (h : Inv ctx held ({i} + taken)) :
    i ∉ ctx.ring.selected ∧ ∀ op ∈ ctx.ring.requests, i ∉ slots (ctx.ops op) := by
  have hnd := (Multiset.nodup_add.mp h.slots_nodup).2.1
  have hi : i ∈ {i} + taken := Multiset.mem_add.mpr (Or.inl (Multiset.mem_singleton_self i))
  constructor
  · intro hsel
    exact Multiset.disjoint_left.mp (Multiset.nodup_add.mp hnd).2.2 hsel
      (Multiset.mem_add.mpr (Or.inl hi))
  · intro op hop hslot
    refine Multiset.disjoint_left.mp
      (Multiset.nodup_add.mp (Multiset.nodup_add.mp hnd).2.1).2.2 hi ?_
    exact mem_owned.mpr ⟨op, Multiset.mem_add.mpr (Or.inr hop), hslot⟩

theorem Inv.setSlot {i : Nat} (h : Inv ctx held ({i} + taken)) (bytes : Bytes) :
    Inv { ctx with brBufs := Function.update ctx.brBufs i bytes } held ({i} + taken) := by
  obtain ⟨hsel, hown⟩ := h.taken_fresh
  have hload : ∀ (o : IoOp) (r : Sqe) (n : Nat), Place o r → i ∉ slots o →
      ({ ctx with brBufs := Function.update ctx.brBufs i bytes } : IouringCtx).load r.buffer n =
        ctx.load r.buffer n ∨ r.opcode = .recvmsgMultishot := by
    intro o r n hplace hi
    cases hplace with
    | multi hcode _ => exact Or.inr hcode
    | pooled b _ _ hbuf _ => exact Or.inl (by rw [hbuf]; rfl)
    | slotted i' off _ hs hbuf _ =>
        have hne : i' ≠ i := by
          rintro rfl
          exact hi (by rw [hs.slots]; exact Multiset.mem_singleton_self i')
        exact Or.inl (by simp [hbuf, IouringCtx.load, hne])
  have hname : ∀ (o : IoOp) (r : Sqe) (n : Nat), Place o r →
      ({ ctx with brBufs := Function.update ctx.brBufs i bytes } : IouringCtx).load r.msgName n =
        ctx.load r.msgName n ∨ r.opcode = .recvmsgMultishot := by
    intro o r n hplace
    cases hplace with
    | multi hcode _ => exact Or.inr hcode
    | pooled b _ _ _ hn => rcases hn with hn | hn <;> exact Or.inl (by rw [hn]; rfl)
    | slotted i' off _ _ _ hn => exact Or.inl (by rw [hn]; rfl)
  refine ⟨h.opLedger, h.itemLedger, h.slotLedger, ?_, ?_, h.order, h.asserts⟩
  · intro r hr
    obtain ⟨hok, hintact⟩ := h.inflight r hr
    refine ⟨hok, fun hout => ?_⟩
    have hcode : r.opcode ≠ .recvmsgMultishot := by
      intro hcode; rw [hcode] at hout; simp [Opcode.outgoing] at hout
    rw [(hload _ r r.len hok.place (hown _ (mem_requests_of_inflight hr))).resolve_right hcode,
      (hname _ r r.msgNamelen hok.place).resolve_right hcode]
    exact hintact hout
  · intro c hc
    obtain ⟨hmem, hok⟩ := h.cq c hc
    refine ⟨hmem, hok.req, fun hcode => ?_, hok.multi, fun hbuf => ?_⟩
    · obtain ⟨hbuffer, hmore, hdata⟩ := hok.single hcode
      have hi := hown _ (mem_requests_of_posted hmem)
      exact ⟨hbuffer, hmore, by
        rw [(hload _ c.req c.data.length hok.req.place hi).resolve_right hcode, hdata]⟩
    · have hne : c.flags.bid ≠ i := by
        rintro rfl
        refine hsel (Multiset.mem_coe.mpr (List.mem_map.mpr ⟨c, ?_, rfl⟩))
        exact List.mem_filter.mpr ⟨hc, hbuf⟩
      simpa [hne] using hok.slot hbuf

theorem mem_of_inFlight {op : OpId} {multi : Bool} {r : Sqe} (h : ctx.inFlight op multi = some r) :
    r ∈ ctx.ring.active ∧ r.userData = op ∧ (r.opcode == .recvmsgMultishot) = multi := by
  have hmem := List.mem_of_find?_eq_some h
  have hprop := List.find?_some h
  simp only [Bool.and_eq_true, beq_iff_eq] at hprop
  exact ⟨hmem, hprop.1, by simpa using hprop.2⟩

theorem Inv.active_ne_last (h : Inv ctx held taken) {r : Sqe} {c : Cqe}
    (hr : r ∈ ctx.ring.active) (hc : c ∈ ctx.ring.cq) (hlast : c.last = true) :
    r.userData ≠ c.req.userData := by
  have hreqs := (Multiset.nodup_add.mp h.nodup).2.1
  have hnd := (Multiset.nodup_add.mp hreqs).1
  intro heq
  refine Multiset.disjoint_left.mp (Multiset.nodup_add.mp hnd).2.2
    (Multiset.mem_coe.mpr (List.mem_map_of_mem hr)) ?_
  exact Multiset.mem_coe.mpr (List.mem_map.mpr ⟨c, List.mem_filter.mpr ⟨hc, hlast⟩, heq.symm⟩)

theorem Inv.item_active (h : Inv ctx held taken) {r : Sqe} {b : BufId}
    (hr : r ∈ ctx.ring.active) (hin : r.opcode.outgoing = false)
    (hp : Pooled (ctx.ops r.userData) b) :
    (∀ r' ∈ ctx.ring.inflight, r'.opcode.outgoing = true → b ∉ items (ctx.ops r'.userData)) ∧
      ∀ c ∈ ctx.ring.cq, b ∉ items (ctx.ops c.req.userData) := by
  have hb : b ∈ items (ctx.ops r.userData) := by
    rw [hp.items]; exact Multiset.mem_singleton_self b
  have hr' : r ∈ ctx.ring.inflight := List.mem_append_left _ hr
  have hown : ∀ op ∈ ctx.ring.requests, b ∈ items (ctx.ops op) → r.userData = op :=
    fun op hop hb' => h.item_owner (Multiset.mem_add.mpr (Or.inr (mem_requests_of_inflight hr')))
      (Multiset.mem_add.mpr (Or.inr hop)) hb hb'
  constructor
  · intro r'' hr'' hout hb'
    have heq := hown _ (mem_requests_of_inflight hr'') hb'
    have htype : r.opcode.opType = r''.opcode.opType := by
      rw [← (h.inflight r hr').1.opType, ← (h.inflight r'' hr'').1.opType, heq]
    revert hin hout htype
    cases r.opcode <;> cases r''.opcode <;> simp [Opcode.outgoing, Opcode.opType]
  · intro c hc hb'
    obtain ⟨hmem, hok⟩ := h.cq c hc
    have heq := hown _ (mem_requests_of_posted hmem) hb'
    by_cases hcode : c.req.opcode = .recvmsgMultishot
    · have hm : Multi (ctx.ops c.req.userData) := by
        cases hok.req.place with
        | multi _ hm => exact hm
        | pooled _ hcode' _ _ _ => exact absurd hcode hcode'
        | slotted _ _ hcode' _ _ _ => rw [hcode] at hcode'; cases hcode'
      rw [hm.items] at hb'
      exact Multiset.notMem_zero _ hb'
    · have hlast : c.last = true := by simp [Cqe.last, (hok.single hcode).2.1]
      exact h.active_ne_last hr hc hlast heq

theorem Inv.perform (h : Inv ctx held taken) {r : Sqe} (hr : r ∈ ctx.ring.active)
    (hcode : r.opcode ≠ .recvmsgMultishot) (res : Int) (data name : Bytes) :
    Inv (ctx.perform r res data name) held taken ∧
      (ctx.perform r res data name).load r.buffer (IouringCtx.arrived r res data).length =
        IouringCtx.arrived r res data := by
  have hok := (h.inflight r (List.mem_append_left _ hr)).1
  unfold IouringCtx.perform
  by_cases hres : res < 0
  · have hnone : IouringCtx.arrived r res data = [] := by
      simp [IouringCtx.arrived, show ¬ 0 ≤ res by omega]
    simp only [hres, if_true, hnone]
    exact ⟨h, by rcases r.buffer with _ | _ | _ | _ <;> simp [IouringCtx.load]⟩
  simp only [hres, if_false]
  cases hopcode : r.opcode with
  | read =>
      cases hok.place with
      | multi hm _ => exact absurd hm hcode
      | slotted _ _ hw _ _ _ => rw [hopcode] at hw; cases hw
      | pooled b _ hp hbuf _ =>
          obtain ⟨hreq, hcq⟩ := h.item_active hr (by rw [hopcode]; rfl) hp
          simp only [hbuf]
          exact ⟨h.setItem _ hreq hcq, load_store_buf _ _ _⟩
  | recvmsg =>
      cases hok.place with
      | multi hm _ => exact absurd hm hcode
      | slotted _ _ hw _ _ _ => rw [hopcode] at hw; cases hw
      | pooled b _ hp hbuf hname =>
          obtain ⟨hreq, hcq⟩ := h.item_active hr (by rw [hopcode]; rfl) hp
          have hstore := h.setItem { ctx.bufs b with
            buf := Bytes.overwrite (ctx.bufs b).buf (IouringCtx.arrived r res data) } hreq hcq
          simp only [hbuf]
          rcases hname with hname | hname <;> simp only [hname]
          · exact ⟨hstore, load_store_buf _ _ _⟩
          · refine ⟨hstore.setItem _ hreq hcq, ?_⟩
            rw [load_buf_store_addr]
            exact load_store_buf _ _ _
  | write =>
      have hnone : IouringCtx.arrived r res data = [] := by simp [IouringCtx.arrived, hopcode]
      rw [hnone]
      exact ⟨h.of_eq rfl rfl rfl rfl rfl rfl rfl rfl rfl rfl rfl,
        by rcases r.buffer with _ | _ | _ | _ <;> simp [IouringCtx.load]⟩
  | sendmsg =>
      have hnone : IouringCtx.arrived r res data = [] := by simp [IouringCtx.arrived, hopcode]
      rw [hnone]
      exact ⟨h.of_eq rfl rfl rfl rfl rfl rfl rfl rfl rfl rfl rfl,
        by rcases r.buffer with _ | _ | _ | _ <;> simp [IouringCtx.load]⟩
  | recvmsgMultishot => exact absurd hopcode hcode

theorem perform_active (r : Sqe) (res : Int) (data name : Bytes) :
    (ctx.perform r res data name).ring.active = ctx.ring.active := by
  unfold IouringCtx.perform
  split
  · rfl
  · split <;> simp

theorem perform_ops (r : Sqe) (res : Int) (data name : Bytes) :
    (ctx.perform r res data name).ops = ctx.ops := by
  unfold IouringCtx.perform
  split
  · rfl
  · split <;> simp

/-! ## Posting a completion -/

theorem posted_post {c : Cqe} (hc : c.req ∈ ctx.ring.active) :
    (ctx.post c).ring.posted = ctx.ring.posted := by
  cases hmore : c.flags.more with
  | true => simp [IoUring.posted, IouringCtx.post, hmore, Cqe.last]
  | false =>
      have hperm := List.perm_cons_erase hc
      have hactive : ((ctx.ring.active.map Sqe.userData : List OpId) : Multiset OpId) =
          {c.req.userData} + ((ctx.ring.active.erase c.req).map Sqe.userData : Multiset OpId) := by
        rw [Multiset.singleton_add, Multiset.cons_coe, Multiset.coe_eq_coe]
        exact hperm.map _
      have hlast : [c].filter Cqe.last = [c] := by simp [Cqe.last, hmore]
      simp only [IoUring.posted, IouringCtx.post, hmore, Bool.false_eq_true, if_false,
        List.filter_append, hlast, List.map_append, List.map_cons, List.map_nil,
        ← Multiset.coe_add, Multiset.coe_singleton, hactive]
      abel

theorem Inv.post {c : Cqe}
    (h : Inv ctx held ((if c.flags.buffer then {c.flags.bid} else 0) + taken))
    (hc : c.req ∈ ctx.ring.active) (hok : CqeOk ctx c) : Inv (ctx.post c) held taken := by
  have hposted := posted_post hc
  have hreqs : (ctx.post c).ring.requests = ctx.ring.requests := by
    rw [IoUring.requests, hposted]
    rfl
  have hselected : (ctx.post c).ring.selected =
      ctx.ring.selected + if c.flags.buffer then {c.flags.bid} else 0 := by
    cases hbuf : c.flags.buffer <;>
      simp only [IoUring.selected, IouringCtx.post, List.filter_append, List.filter_cons, hbuf,
        List.filter_nil, Bool.false_eq_true, if_false, if_true, List.map_append, List.map_cons,
        List.map_nil, ← Multiset.coe_add, Multiset.coe_singleton, Multiset.coe_nil]
  have hmem : c.req.userData ∈ ctx.ring.posted :=
    Multiset.mem_add.mpr (Or.inl (Multiset.mem_coe.mpr (List.mem_map_of_mem hc)))
  refine ⟨?_, ?_, ?_, ?_, ?_, ?_, h.asserts⟩
  · rw [hreqs]; exact h.opLedger
  · rw [hreqs]; exact h.itemLedger
  · refine Eq.trans ?_ h.slotLedger
    rw [hreqs, hselected]
    simp only [IouringCtx.post]
    abel
  · intro r hr
    refine h.inflight r ?_
    simp only [IoUring.inflight, IouringCtx.post, List.mem_append] at hr ⊢
    refine hr.imp_left fun hr => ?_
    split at hr
    · exact hr
    · exact List.mem_of_mem_erase hr
  · intro c' hc'
    rw [hposted]
    rcases List.mem_append.mp hc' with hc' | hc'
    · obtain ⟨hmem', hok'⟩ := h.cq c' hc'
      exact ⟨hmem', hok'.req, hok'.single, hok'.multi, hok'.slot⟩
    · rw [List.mem_singleton.mp hc']
      exact ⟨hmem, hok.req, hok.single, hok.multi, hok.slot⟩
  · refine List.pairwise_append.mpr ⟨h.order, List.pairwise_singleton _ _, ?_⟩
    intro c' hc' c'' hc'' hlast
    rw [List.mem_singleton.mp hc'']
    exact h.active_ne_last hc hc' hlast

theorem Inv.kernel (h : Inv ctx held taken) (e : KEvent) : Inv (ctx.kernel e) held taken := by
  cases e with
  | complete op res data name tag =>
      simp only [IouringCtx.kernel]
      split
      · exact h
      rename_i r hr
      obtain ⟨hactive, -, hmulti⟩ := mem_of_inFlight hr
      have hcode : r.opcode ≠ .recvmsgMultishot := by simpa using hmulti
      obtain ⟨hperf, hdata⟩ := h.perform hactive hcode res data name
      have hok := (h.inflight r (List.mem_append_left _ hactive)).1
      refine Inv.post (by simpa using hperf) (by rw [perform_active]; exact hactive) ?_
      exact ⟨by rw [perform_ops]; exact hok, fun _ => ⟨rfl, rfl, hdata⟩,
        fun hm => absurd hm hcode, by simp⟩
  | recv op bid res data more tag =>
      simp only [IouringCtx.kernel]
      split
      · exact h
      rename_i r hr
      split
      · rename_i hbid
        obtain ⟨hactive, -, hmulti⟩ := mem_of_inFlight hr
        have hcode : r.opcode = .recvmsgMultishot := by simpa using hmulti
        have hok := (h.inflight r (List.mem_append_left _ hactive)).1
        have htake : Inv { ctx with br := ctx.br.erase bid } held ({bid} + taken) := by
          refine h.rearrange (fun _ _ => rfl) rfl rfl ?_
          have hperm : ((ctx.br : List Nat) : Multiset Nat) = {bid} +
            (ctx.br.erase bid : Multiset Nat) := by
            rw [Multiset.singleton_add, Multiset.cons_coe, Multiset.coe_eq_coe]
            exact List.perm_cons_erase hbid
          rw [hperm]
          abel
        refine Inv.post (by simpa using htake.setSlot _) hactive ?_
        refine ⟨hok, fun hm => absurd hcode hm, by simp, fun _ => ?_⟩
        simp only [Function.update_self]
        exact Bytes.take_overwrite _ _
      · exact h
  | fail op res =>
      simp only [IouringCtx.kernel]
      split
      · exact h
      rename_i r hr
      split
      · rename_i hres
        obtain ⟨hactive, -, hmulti⟩ := mem_of_inFlight hr
        have hcode : r.opcode = .recvmsgMultishot := by simpa using hmulti
        have hok := (h.inflight r (List.mem_append_left _ hactive)).1
        refine Inv.post (by simpa using h) hactive ?_
        exact ⟨hok, fun hm => absurd hcode hm, fun _ _ => hres, by simp⟩
      · exact h

/-! ## Taking a completion -/

/-- The oldest completion is taken: with the last one of a request the op is in
the program's hands, and so is the ring index the completion selected. -/
theorem Inv.iouringCqeSeen (h : Inv ctx held taken) {c : Cqe} {cq : List Cqe}
    (hcq : ctx.ring.cq = c :: cq) :
    Inv (ctx.iouringCqeSeen c cq) ((if c.last then {c.req.userData} else 0) + held)
      ((if c.flags.buffer then {c.flags.bid} else 0) + taken) := by
  have hposted : ctx.ring.posted =
      (if c.last then {c.req.userData} else 0) + (ctx.iouringCqeSeen c cq).ring.posted := by
    cases hlast : c.last with
    | false => simp [IoUring.posted, IouringCtx.iouringCqeSeen, hcq, hlast]
    | true =>
        simp only [IoUring.posted, IouringCtx.iouringCqeSeen, hcq, List.filter_cons, hlast, if_true,
          List.map_cons, ← Multiset.cons_coe, ← Multiset.singleton_add]
        abel
  have hreqs : ctx.ring.requests =
      (if c.last then {c.req.userData} else 0) + (ctx.iouringCqeSeen c cq).ring.requests := by
    rw [IoUring.requests, hposted, IoUring.requests, add_assoc]
    rfl
  have hselected : ctx.ring.selected =
      (if c.flags.buffer then {c.flags.bid} else 0) + (ctx.iouringCqeSeen c cq).ring.selected := by
    cases hbuf : c.flags.buffer <;>
      simp [IoUring.selected, IouringCtx.iouringCqeSeen, hcq, hbuf, ← Multiset.cons_coe,
        ← Multiset.singleton_add]
  have hmove : (if c.last then {c.req.userData} else 0) + held +
      (ctx.iouringCqeSeen c cq).ring.requests = held + ctx.ring.requests := by
    rw [hreqs]; abel
  have horder := h.order
  rw [hcq, List.pairwise_cons] at horder
  refine ⟨?_, ?_, ?_, h.inflight, ?_, horder.2, h.asserts⟩
  · rw [hmove]; exact h.opLedger
  · rw [hmove]; exact h.itemLedger
  · refine Eq.trans ?_ h.slotLedger
    rw [hmove, hselected]
    simp only [IouringCtx.iouringCqeSeen]
    abel
  · intro c' hc'
    obtain ⟨hmem, hok⟩ := h.cq c' (by rw [hcq]; exact List.mem_cons_of_mem c hc')
    refine ⟨?_, hok.req, hok.single, hok.multi, hok.slot⟩
    rw [hposted] at hmem
    refine (Multiset.mem_add.mp hmem).resolve_left fun hself => ?_
    cases hlast : c.last with
    | false => simp [hlast] at hself
    | true =>
        simp only [hlast, if_true, Multiset.mem_singleton] at hself
        exact horder.1 c' hc' hlast hself

/-! ## Which requests there are -/

structure AllRequests (P : Sqe → Prop) (ring : IoUring) : Prop where
  inflight : ∀ r ∈ ring.inflight, P r
  cq : ∀ c ∈ ring.cq, P c.req

variable {ctx' : IouringCtx} {P : Sqe → Prop}

theorem AllRequests.effect (h : AllRequests P ctx.ring) {rs : List Sqe}
    (heff : Effect ctx ctx' rs) (hrs : ∀ r ∈ rs, P r) : AllRequests P ctx'.ring where
  inflight := by
    intro r hr
    rw [heff.inflight] at hr
    exact (List.mem_append.mp hr).elim (h.inflight r) (hrs r)
  cq := by
    rw [heff.cq]
    exact h.cq

theorem AllRequests.post (h : AllRequests P ctx.ring) {c : Cqe} (hc : P c.req) :
    AllRequests P (ctx.post c).ring where
  inflight := by
    intro r hr
    refine h.inflight r ?_
    simp only [IoUring.inflight, IouringCtx.post, List.mem_append] at hr ⊢
    refine hr.imp_left fun hr => ?_
    split at hr
    · exact hr
    · exact List.mem_of_mem_erase hr
  cq := by
    intro c' hc'
    rcases List.mem_append.mp hc' with hc' | hc'
    · exact h.cq c' hc'
    · rw [List.mem_singleton.mp hc']
      exact hc

theorem perform_requests (h : AllRequests P ctx.ring) (r : Sqe) (res : Int) (data name : Bytes) :
    AllRequests P (ctx.perform r res data name).ring := by
  unfold IouringCtx.perform
  split
  · exact h
  · split
    · rw [store_ring]; exact h
    · rw [store_ring, store_ring]; exact h
    · exact ⟨h.inflight, h.cq⟩
    · exact ⟨h.inflight, h.cq⟩
    · exact h

theorem AllRequests.kernel (h : AllRequests P ctx.ring) (e : KEvent) :
    AllRequests P (ctx.kernel e).ring := by
  have hactive : ∀ {op multi r}, ctx.inFlight op multi = some r → P r := fun hr =>
    h.inflight _ (List.mem_append_left _ (mem_of_inFlight hr).1)
  cases e with
  | complete op res data name tag =>
      simp only [IouringCtx.kernel]
      split
      · exact h
      · rename_i r hr
        exact (perform_requests h r res data name).post (hactive hr)
  | recv op bid res data more tag =>
      simp only [IouringCtx.kernel]
      split
      · exact h
      · rename_i r hr
        split
        · exact AllRequests.post ⟨h.inflight, h.cq⟩ (hactive hr)
        · exact h
  | fail op res =>
      simp only [IouringCtx.kernel]
      split
      · exact h
      · rename_i r hr
        split
        · exact h.post (hactive hr)
        · exact h

theorem AllRequests.seen (h : AllRequests P ctx.ring) {c : Cqe} {cq : List Cqe}
    (hcq : ctx.ring.cq = c :: cq) : P c.req ∧ AllRequests P (ctx.iouringCqeSeen c cq).ring := by
  refine ⟨h.cq c (by rw [hcq]; exact List.mem_cons_self), h.inflight, fun c' hc' => ?_⟩
  exact h.cq c' (by rw [hcq]; exact List.mem_cons_of_mem c hc')

end Dataplane.Proofs
