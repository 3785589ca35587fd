import Dataplane.Model.TunDevice
import Dataplane.Model.Utils
import Dataplane.ProofSupport.Numerals
import Dataplane.Proofs.Startup

/-!
# The TUN device of an edge

`inet_pton` accepts an address in the one form in which `inet_ntop` writes it.
That, the sizes of the arrays and a ledger of what a process holds say what
`new_tun_device` leaves behind, on success and on each failure.
-/

namespace Dataplane.Model.Startup

open ProofSupport

structure Octets.Behind (l : Text) (s : Octets) : Prop where
  text : l = (s.done.flatMap fun o => numeral o ++ ['.']) ++
    if s.sawDigit then numeral s.value else []
  few : s.done.length ≤ 3
  bytes : ∀ o ∈ s.done, o ≤ 255
  value : s.value ≤ 255
  fresh : s.sawDigit = false → s.value = 0

/-! ## When the system calls let a function succeed -/

/-- The text is `addr` as `inet_ntop` writes it. -/
def Dotted (text : Option Text) (addr : Bytes) : Prop :=
  addr.length = 4 ∧ text = some (inetNtop4 addr).toList

structure TunCreateOutcomes.Succeeds (o : TunCreateOutcomes) : Prop where
  calloc : o.calloc = true
  openTun : 0 ≤ o.openTun
  tunSetIff : 0 ≤ o.tunSetIff

structure TunConfigureOutcomes.Succeeds (ip netmask : Option Text) (o : TunConfigureOutcomes) :
    Prop where
  ip : ∃ addr, Dotted ip addr
  netmask : ∃ mask, Dotted netmask mask
  socket : 0 ≤ o.socket
  sifAddr : 0 ≤ o.sifAddr
  sifNetmask : 0 ≤ o.sifNetmask
  sifMtu : 0 ≤ o.sifMtu

structure TunFlagsOutcomes.Succeeds (o : TunFlagsOutcomes) : Prop where
  socket : 0 ≤ o.socket
  gifFlags : 0 ≤ o.gifFlags
  sifFlags : 0 ≤ o.sifFlags

structure TunOutcomes.Succeeds (ip netmask : Option Text) (o : TunOutcomes) : Prop where
  create : o.create.Succeeds
  configure : o.configure.Succeeds ip netmask
  up : o.up.Succeeds

structure TunDevice.SetUp (tun : TunDevice) (ip netmask : Option Text) (mtu : Int)
    (o : TunOutcomes) : Prop where
  fd : tun.fd = o.create.openTun
  name : tun.name = o.create.ifrName.take 15
  ip : some tun.ip = ip
  netmask : some tun.netmask = netmask
  mtu : tun.mtu = mtu

/-! ## The requests and what is written -/

def addressIn (text : Option Text) : Bytes := (text.bind inetPton4).getD []

def configuration (name : Text) (ip netmask : Option Text) (mtu : Int) : List Ioctl :=
  [.siocSifAddr name (addressIn ip), .siocSifNetmask name (addressIn netmask),
    .siocSifMtu name mtu]

def flagRequests (change : IfFlags → IfFlags) (name : Text) (o : TunFlagsOutcomes) : List Ioctl :=
  [.siocGifFlags name, .siocSifFlags name (change o.ifrFlags)]

def tunRequests (ifname ip netmask : Option Text) (mtu : Int) (o : TunOutcomes) : List Ioctl :=
  let name := o.create.ifrName.take 15
  .tunSetIff ((ifname.getD []).take 15) iffTunNoPi :: configuration name ip netmask mtu ++
    flagRequests (fun flags => flags ||| (iffUp ||| iffRunning)) name o.up

/-- A step of a function that can fail, with the request it makes, if any. -/
structure Attempt where
  ok : Bool
  request : Option Ioctl

/-- What is asked for when the attempts are made one by one up to the first that
fails. -/
def requestsMade : List Attempt → List Ioctl
  | [] => []
  | a :: attempts => a.request.toList ++ if a.ok then requestsMade attempts else []

def createAttempts (name : Option Text) (o : TunCreateOutcomes) : List Attempt :=
  [⟨o.calloc, none⟩, ⟨decide (0 ≤ o.openTun), none⟩,
    ⟨decide (0 ≤ o.tunSetIff), some (.tunSetIff ((name.getD []).take 15) iffTunNoPi)⟩]

def configureAttempts (name : Text) (ip netmask : Option Text) (mtu : Int)
    (o : TunConfigureOutcomes) : List Attempt :=
  [⟨ip.isSome && netmask.isSome, none⟩, ⟨decide (0 ≤ o.socket), none⟩,
    ⟨(ip.bind inetPton4).isSome, none⟩,
    ⟨decide (0 ≤ o.sifAddr), some (.siocSifAddr name (addressIn ip))⟩,
    ⟨(netmask.bind inetPton4).isSome, none⟩,
    ⟨decide (0 ≤ o.sifNetmask), some (.siocSifNetmask name (addressIn netmask))⟩,
    ⟨decide (0 ≤ o.sifMtu), some (.siocSifMtu name mtu)⟩]

def flagAttempts (change : IfFlags → IfFlags) (name : Text) (o : TunFlagsOutcomes) :
    List Attempt :=
  [⟨decide (0 ≤ o.socket), none⟩, ⟨decide (0 ≤ o.gifFlags), some (.siocGifFlags name)⟩,
    ⟨decide (0 ≤ o.sifFlags), some (.siocSifFlags name (change o.ifrFlags))⟩]

def tunAttempts (ifname ip netmask : Option Text) (mtu : Int) (o : TunOutcomes) : List Attempt :=
  let name := o.create.ifrName.take 15
  createAttempts ifname o.create ++ configureAttempts name ip netmask mtu o.configure ++
    flagAttempts (fun flags => flags ||| (iffUp ||| iffRunning)) name o.up

def ipv6Write (name : Text) (o : DisableIpv6Outcomes) : List (Text × Text) :=
  if o.fopen = true ∧ 0 ≤ o.fprintf then
    [("/proc/sys/net/ipv6/conf/".toList ++ name ++ "/disable_ipv6".toList, "1\n".toList)]
  else []

end Dataplane.Model.Startup

namespace Dataplane.Proofs.Startup

open Dataplane.Model Dataplane.Model.Startup
open Dataplane.ProofSupport Dataplane.ProofSupport.Ledger

/-! ## Addresses as texts -/

theorem octets_step_cases {t s : Octets} {a : Char} (h : t.step a = some s) :
    (∃ d < 10, a = Nat.digitChar d ∧ (t.sawDigit = true → 0 < t.value) ∧
        (t.sawDigit = false → t.done.length ≤ 3) ∧ t.value * 10 + d ≤ 255 ∧
        s = ⟨t.done, t.value * 10 + d, true⟩) ∨
      (a = '.' ∧ t.sawDigit = true ∧ t.done.length ≠ 3 ∧ s = ⟨t.done ++ [t.value], 0, false⟩) := by
  unfold Octets.step Octets.count at h
  split at h
  · rename_i hdigit
    left
    refine ⟨digitValue a, digitValue_lt hdigit, (digitChar_digitValue hdigit).symm, ?_⟩
    simp only [digitValue]
    grind
  · right
    grind

theorem octets_step_digit {done : List Nat} (value : Nat) (saw : Bool) {d : Nat} (hd : d < 10)
    (hsaw : saw = true → 0 < value) (hfew : done.length ≤ 3) (hle : value * 10 + d ≤ 255) :
    Octets.step ⟨done, value, saw⟩ (Nat.digitChar d) = some ⟨done, value * 10 + d, true⟩ := by
  have hdigit := isDigit_digitChar hd
  have hvalue : (Nat.digitChar d).toNat - '0'.toNat = d := digitValue_digitChar hd
  unfold Octets.step Octets.count
  simp only [hdigit, hvalue]
  grind

theorem octets_step_dot {done : List Nat} {value : Nat} (hfew : done.length ≤ 2) :
    Octets.step ⟨done, value, true⟩ '.' = some ⟨done ++ [value], 0, false⟩ := by
  unfold Octets.step Octets.count
  grind

theorem octets_behind_nil (s : Octets) : Octets.Behind [] s ↔ s = ⟨[], 0, false⟩ := by
  constructor
  · intro h
    obtain ⟨done, value, saw⟩ := s
    have htext := (List.append_eq_nil_iff.mp h.text.symm)
    have hdone : done = [] := by
      cases done with
      | nil => rfl
      | cons o done => simp at htext
    have hsaw : saw = false := by
      cases saw with
      | false => rfl
      | true => exact absurd htext.2 Nat.toDigits_ne_nil
    have hvalue : value = 0 := h.fresh hsaw
    rw [hdone, hsaw, hvalue]
  · rintro rfl
    exact ⟨rfl, by simp, by simp, by simp, fun _ => rfl⟩

theorem octets_behind_snoc {l : Text} {t s : Octets} {a : Char} (h : t.Behind l)
    (hstep : t.step a = some s) : s.Behind (l ++ [a]) := by
  rcases octets_step_cases hstep with ⟨d, hd, rfl, hpos, hfew, hle, rfl⟩ | ⟨rfl, hsaw, hlen, rfl⟩
  · refine ⟨?_, h.few, h.bytes, hle, by simp⟩
    rw [h.text, List.append_assoc]
    congr 1
    cases hsaw : t.sawDigit with
    | true =>
        exact (numeral_snoc (hpos hsaw) hd).symm
    | false =>
        have hzero := h.fresh hsaw
        simp [hzero, numeral_digit hd]
  · have hbytes : ∀ o ∈ t.done ++ [t.value], o ≤ 255 := by
      intro o ho
      rcases List.mem_append.mp ho with ho | ho
      · exact h.bytes o ho
      · rw [List.mem_singleton.mp ho]
        exact h.value
    have hfew : (t.done ++ [t.value]).length ≤ 3 := by
      have := h.few
      rw [List.length_append, List.length_singleton]
      omega
    refine ⟨?_, hfew, hbytes, by simp, fun _ => rfl⟩
    rw [h.text]
    simp [hsaw]

theorem octets_behind_last {l : Text} {s : Octets} {a : Char} (h : s.Behind (l ++ [a])) :
    ∃ t, Octets.Behind l t ∧ t.step a = some s := by
  obtain ⟨done, value, saw⟩ := s
  have htext := h.text
  cases saw with
  | true =>
      by_cases hdigit : value < 10
      · -- the first digit of an octet
        rw [if_pos rfl, numeral_digit hdigit] at htext
        obtain ⟨hl, ha⟩ := List.append_inj' htext rfl
        obtain rfl := List.singleton_inj.mp ha
        refine ⟨⟨done, 0, false⟩, ⟨by simpa using hl, h.few, h.bytes, by simp, fun _ => rfl⟩, ?_⟩
        have hstep := octets_step_digit 0 false hdigit (by simp) h.few (by simpa using h.value)
        simpa using hstep
      · have hsplit : value / 10 * 10 + value % 10 = value := by omega
        have hmod : value % 10 < 10 := Nat.mod_lt _ (by omega)
        have hnumeral := numeral_snoc (n := value / 10) (d := value % 10) (by omega) hmod
        rw [hsplit] at hnumeral
        rw [if_pos rfl, hnumeral, ← List.append_assoc] at htext
        obtain ⟨hl, ha⟩ := List.append_inj' htext rfl
        obtain rfl := List.singleton_inj.mp ha
        have hle := h.value
        refine ⟨⟨done, value / 10, true⟩,
          ⟨by simpa using hl, h.few, h.bytes, by dsimp only at *; omega, by simp⟩, ?_⟩
        have hstep := octets_step_digit (value / 10) true hmod (fun _ => by omega) h.few
          (by rw [hsplit]; exact hle)
        rwa [hsplit] at hstep
  | false =>
      have hzero : value = 0 := h.fresh rfl
      subst hzero
      rcases List.eq_nil_or_concat done with rfl | ⟨done, o, rfl⟩
      · simp at htext
      · have hfew := h.few
        rw [List.concat_eq_append] at *
        rw [List.flatMap_append, List.flatMap_singleton, if_neg (by simp), List.append_nil,
          ← List.append_assoc] at htext
        obtain ⟨hl, ha⟩ := List.append_inj' htext rfl
        obtain rfl := List.singleton_inj.mp ha
        have hlen : done.length ≤ 2 := by
          have hlonger : (done ++ [o]).length ≤ 3 := hfew
          rw [List.length_append, List.length_singleton] at hlonger
          omega
        refine ⟨⟨done, o, true⟩, ⟨by simpa using hl, by dsimp only; omega,
          fun x hx => h.bytes x (by simp [hx]), h.bytes o (by simp), by simp⟩, ?_⟩
        exact octets_step_dot hlen

theorem octets_tracks :
    Tracks Octets.step ⟨[], 0, false⟩ (fun l s => Octets.Behind l s) where
  nil := octets_behind_nil
  snoc _ _ _ := ⟨octets_behind_last, fun ⟨_, h, hstep⟩ => octets_behind_snoc h hstep⟩

theorem inetNtop4_toList (a b c d : UInt8) : (inetNtop4 [a, b, c, d]).toList =
    ([a.toNat, b.toNat, c.toNat].flatMap fun o => numeral o ++ ['.']) ++ numeral d.toNat := by
  have hdot : (toString ".").toList = ['.'] := rfl
  simp [inetNtop4, numeral, hdot]

theorem octets_four {src : Text} {s : Octets} (h : s.Behind src) (hcount : 4 ≤ s.count) :
    ∃ addr : Bytes, addr = (s.done ++ [s.value]).map UInt8.ofNat ∧ addr.length = 4 ∧
      src = (inetNtop4 addr).toList := by
  obtain ⟨done, value, saw⟩ := s
  have hfew : done.length ≤ 3 := h.few
  have hcount' : 4 ≤ done.length + saw.toNat := hcount
  have hsaw : saw = true := by
    cases saw with
    | true => rfl
    | false => rw [Bool.toNat_false] at hcount'; omega
  rw [hsaw, Bool.toNat_true] at hcount'
  obtain ⟨a, b, c, rfl⟩ := List.length_eq_three.mp (by omega : done.length = 3)
  have hbyte : ∀ o ≤ 255, (UInt8.ofNat o).toNat = o := fun o ho =>
    UInt8.toNat_ofNat_of_lt (by simpa [UInt8.size] using Nat.lt_succ_of_le ho)
  have ha := hbyte a (h.bytes a (by simp))
  have hb := hbyte b (h.bytes b (by simp))
  have hc := hbyte c (h.bytes c (by simp))
  have hd : (UInt8.ofNat value).toNat = value := hbyte value h.value
  refine ⟨_, rfl, rfl, ?_⟩
  calc
    src = ([a, b, c].flatMap fun o => numeral o ++ ['.']) ++ numeral value := by
      rw [h.text]
      simp [hsaw]
    _ = (inetNtop4 [.ofNat a, .ofNat b, .ofNat c, .ofNat value]).toList := by
      rw [inetNtop4_toList, ha, hb, hc, hd]

theorem octets_behind_inetNtop4 (a b c d : UInt8) :
    Octets.Behind (inetNtop4 [a, b, c, d]).toList ⟨[a.toNat, b.toNat, c.toNat], d.toNat, true⟩ := by
  have ha := a.toNat_lt
  have hb := b.toNat_lt
  have hc := c.toNat_lt
  have hd := d.toNat_lt
  refine ⟨inetNtop4_toList a b c d, by simp, ?_, by dsimp only; omega, by simp⟩
  intro o ho
  simp only [List.mem_cons, List.not_mem_nil, or_false] at ho
  omega

/-- `inet_pton` accepts what `inet_ntop` writes and nothing else. -/
theorem inetPton4_iff (src : Text) (addr : Bytes) :
    inetPton4 src = some addr ↔ addr.length = 4 ∧ src = (inetNtop4 addr).toList := by
  have htracks := octets_tracks.foldlM_iff src
  constructor
  · intro h
    unfold inetPton4 at h
    split at h
    · cases h
    · rename_i s hs
      split at h
      · cases h
      · rename_i hcount
        obtain ⟨addr', haddr, hlen, hsrc⟩ :=
          octets_four ((htracks s).mp hs) (Nat.not_lt.mp hcount)
        rw [← haddr] at h
        obtain rfl := Option.some.inj h
        exact ⟨hlen, hsrc⟩
  · rintro ⟨hlen, rfl⟩
    obtain ⟨a, b, c, d, rfl⟩ := List.length_eq_four.mp hlen
    unfold inetPton4
    rw [(htracks _).mpr (octets_behind_inetNtop4 a b c d)]
    simp [Octets.count]

theorem inetNtop4_length_le {addr : Bytes} (hlen : addr.length = 4) :
    (inetNtop4 addr).toList.length ≤ 15 := by
  obtain ⟨a, b, c, d, rfl⟩ := List.length_eq_four.mp hlen
  have hbyte : ∀ o : UInt8, (numeral o.toNat).length ≤ 3 := fun o =>
    numeral_length_le (by omega) (by have := o.toNat_lt; omega)
  have ha := hbyte a
  have hb := hbyte b
  have hc := hbyte c
  have hd := hbyte d
  rw [inetNtop4_toList]
  simp only [List.flatMap_cons, List.flatMap_nil, List.length_append, List.length_cons,
    List.length_nil]
  omega

/-! ## What a call does -/

/-- From `s` to `s'` the process makes the requests `asked` and writes `written`,
and of what it holds `had` becomes `has`. -/
structure Did (s : Host) (asked : List Ioctl) (written : List (Text × Text))
    (had has : Multiset Obj) (s' : Host) : Prop where
  ioctls : s'.ioctls = s.ioctls ++ asked
  files : s'.files = s.files ++ written
  holds : ∀ live, Holds s.heap (had + live) → Holds s'.heap (has + live)

section
variable {s s' s'' : Host} {asked asked' : List Ioctl} {written written' : List (Text × Text)}
  {had has has' : Multiset Obj}

theorem Did.trans (h : Did s asked written had has s') (h' : Did s' asked' written' has has' s'') :
    Did s (asked ++ asked') (written ++ written') had has' s'' where
  ioctls := by rw [h'.ioctls, h.ioctls, List.append_assoc]
  files := by rw [h'.files, h.files, List.append_assoc]
  holds live hlive := h'.holds live (h.holds live hlive)

theorem Did.frame (h : Did s asked written had has s') (more : Multiset Obj) :
    Did s asked written (had + more) (has + more) s' where
  ioctls := h.ioctls
  files := h.files
  holds live hlive := by
    rw [add_assoc] at hlive ⊢
    exact h.holds _ hlive

theorem Did.within (h : Did s asked written 0 has s')
    (h' : Did s' asked' written' 0 0 s'') :
    Did s (asked ++ asked') (written ++ written') 0 has s'' := by
  have hframe := h'.frame has
  rw [zero_add] at hframe
  exact h.trans hframe

theorem Did.asks (hioctls : s'.ioctls = s.ioctls ++ asked) (hfiles : s'.files = s.files)
    (hholds : ∀ live, Holds s.heap (had + live) → Holds s'.heap (has + live)) :
    Did s asked [] had has s' :=
  ⟨hioctls, hfiles.trans (List.append_nil _).symm, hholds⟩

theorem Did.quiet (hioctls : s'.ioctls = s.ioctls) (hfiles : s'.files = s.files)
    (hholds : ∀ live, Holds s.heap (had + live) → Holds s'.heap (has + live)) :
    Did s [] [] had has s' :=
  .asks (hioctls.trans (List.append_nil _).symm) hfiles hholds

end

theorem host_acquire_cases (s : Host) (ok : Bool) :
    (ok = true ∧ s.acquire ok =
        (some s.heap.next, { s with heap := { s.heap with next := s.heap.next + 1 } })) ∨
      (ok = false ∧ s.acquire ok = (none, s)) := by
  unfold Host.acquire
  rcases acquire_cases s.heap ok with ⟨hok, hacq⟩ | ⟨hok, hacq⟩
  · rw [hacq]
    exact .inl ⟨hok, rfl⟩
  · rw [hacq]
    exact .inr ⟨hok, rfl⟩

theorem holds_borrowed {h : Heap} {live : Multiset Obj} (hh : Holds h (0 + live)) :
    Holds (Heap.release { h with next := h.next + 1 } h.next) (0 + live) :=
  hh.acquire.release

/-! ## Attempts -/

theorem requestsMade_append_of_all {as : List Attempt} (h : as.all Attempt.ok = true)
    (bs : List Attempt) : requestsMade (as ++ bs) = requestsMade as ++ requestsMade bs := by
  induction as with
  | nil => rfl
  | cons a as ih =>
      rw [List.all_cons, Bool.and_eq_true] at h
      rw [List.cons_append, requestsMade, requestsMade, if_pos h.1, if_pos h.1, ih h.2,
        List.append_assoc]

theorem requestsMade_append_of_fails {as : List Attempt} (h : ¬ as.all Attempt.ok = true)
    (bs : List Attempt) : requestsMade (as ++ bs) = requestsMade as := by
  induction as with
  | nil => simp at h
  | cons a as ih =>
      rw [List.cons_append, requestsMade, requestsMade]
      by_cases hok : a.ok = true
      · rw [if_pos hok, if_pos hok, ih fun hall => h (by simp [hok, hall])]
      · rw [if_neg hok, if_neg hok]

/-- What is asked for is the beginning of what would have been asked for. -/
theorem requestsMade_part (as : List Attempt) :
    requestsMade as <+: as.filterMap Attempt.request := by
  induction as with
  | nil => exact List.prefix_rfl
  | cons a as ih =>
      have hcons : (a :: as).filterMap Attempt.request =
          a.request.toList ++ as.filterMap Attempt.request := by
        cases hrequest : a.request <;> simp [hrequest]
      rw [requestsMade, hcons, List.prefix_append_right_inj]
      split
      · exact ih
      · exact List.nil_prefix

theorem requestsMade_all {as : List Attempt} (h : as.all Attempt.ok = true) :
    requestsMade as = as.filterMap Attempt.request := by
  induction as with
  | nil => rfl
  | cons a as ih =>
      rw [List.all_cons, Bool.and_eq_true] at h
      rw [requestsMade, if_pos h.1, ih h.2]
      cases hrequest : a.request <;> simp [hrequest]

theorem createAttempts_all {name : Option Text} {o : TunCreateOutcomes} :
    (createAttempts name o).all Attempt.ok = true ↔ o.Succeeds := by
  simp only [createAttempts, List.all_cons, List.all_nil, Bool.and_true, Bool.and_eq_true,
    decide_eq_true_eq]
  exact ⟨fun ⟨hcalloc, hopen, hset⟩ => ⟨hcalloc, hopen, hset⟩,
    fun h => ⟨h.calloc, h.openTun, h.tunSetIff⟩⟩

theorem flagAttempts_all {change : IfFlags → IfFlags} {name : Text} {o : TunFlagsOutcomes} :
    (flagAttempts change name o).all Attempt.ok = true ↔ o.Succeeds := by
  simp only [flagAttempts, List.all_cons, List.all_nil, Bool.and_true, Bool.and_eq_true,
    decide_eq_true_eq]
  exact ⟨fun ⟨hsocket, hget, hset⟩ => ⟨hsocket, hget, hset⟩,
    fun h => ⟨h.socket, h.gifFlags, h.sifFlags⟩⟩

theorem dotted_iff {text : Option Text} :
    (∃ addr, Dotted text addr) ↔ (text.bind inetPton4).isSome = true := by
  cases text with
  | none => exact iff_of_false (fun ⟨_, h⟩ => by cases h.2) (by simp)
  | some text =>
      rw [Option.bind_some, Option.isSome_iff_exists]
      refine exists_congr fun addr => ?_
      rw [inetPton4_iff, Dotted, Option.some.injEq]

theorem configureAttempts_all {name : Text} {ip netmask : Option Text} {mtu : Int}
    {o : TunConfigureOutcomes} :
    (configureAttempts name ip netmask mtu o).all Attempt.ok = true ↔ o.Succeeds ip netmask := by
  simp only [configureAttempts, List.all_cons, List.all_nil, Bool.and_true, Bool.and_eq_true,
    decide_eq_true_eq, ← dotted_iff]
  constructor
  · rintro ⟨-, hsocket, hip, haddr, hnetmask, hmask, hmtu⟩
    exact ⟨hip, hnetmask, hsocket, haddr, hmask, hmtu⟩
  · intro h
    obtain ⟨_, _, rfl⟩ := h.ip
    obtain ⟨_, _, rfl⟩ := h.netmask
    exact ⟨⟨rfl, rfl⟩, h.socket, h.ip, h.sifAddr, h.netmask, h.sifNetmask, h.sifMtu⟩

theorem tunAttempts_all {ifname ip netmask : Option Text} {mtu : Int} {o : TunOutcomes} :
    (tunAttempts ifname ip netmask mtu o).all Attempt.ok = true ↔ o.Succeeds ip netmask := by
  simp only [tunAttempts, List.all_append, Bool.and_eq_true, createAttempts_all,
    configureAttempts_all, flagAttempts_all]
  exact ⟨fun ⟨⟨hcreate, hconfigure⟩, hup⟩ => ⟨hcreate, hconfigure, hup⟩,
    fun h => ⟨⟨h.create, h.configure⟩, h.up⟩⟩

theorem requestsMade_tunAttempts {ifname ip netmask : Option Text} {mtu : Int} {o : TunOutcomes}
    (hok : o.Succeeds ip netmask) : requestsMade (tunAttempts ifname ip netmask mtu o) =
      tunRequests ifname ip netmask mtu o :=
  requestsMade_all (tunAttempts_all.mpr hok)

/-! ## The functions of the module -/

inductive CreateTun (name : Option Text) (o : TunCreateOutcomes) (s : Host) :
    Option TunDevice × Host → Prop
  | done {s' : Host} (tun : TunDevice) (hok : o.Succeeds) (hfd : tun.fd = o.openTun)
      (hname : tun.name = o.ifrName.take 15)
      (hdid : Did s (requestsMade (createAttempts name o)) [] 0 {tun.self, tun.file} s') :
      CreateTun name o s (some tun, s')
  | failed {s' : Host} (hfail : ¬ o.Succeeds)
      (hdid : Did s (requestsMade (createAttempts name o)) [] 0 0 s') :
      CreateTun name o s (none, s')

theorem tunDeviceCreate_cases (name : Option Text) (o : TunCreateOutcomes) (s : Host) :
    CreateTun name o s (tunDeviceCreate name o s) := by
  unfold tunDeviceCreate
  rcases host_acquire_cases s o.calloc with ⟨hcalloc, hacq⟩ | ⟨hcalloc, hacq⟩
  · rw [hacq]
    dsimp only
    rcases host_acquire_cases { s with heap := { s.heap with next := s.heap.next + 1 } }
      (decide (0 ≤ o.openTun)) with ⟨hopen, hacq'⟩ | ⟨hopen, hacq'⟩
    · have hasked : requestsMade (createAttempts name o) =
          [.tunSetIff ((name.getD []).take 15) iffTunNoPi] := by
        simp only [createAttempts, requestsMade, hcalloc, hopen, if_true]
        split <;> rfl
      rw [hacq']
      dsimp only
      by_cases hset : o.tunSetIff < 0
      · rw [if_pos hset]
        apply CreateTun.failed fun hok => absurd hok.tunSetIff (Int.not_le.mpr hset)
        rw [hasked]
        exact .asks rfl rfl fun live hlive => hlive.acquire.acquire.release.release
      · rw [if_neg hset]
        apply CreateTun.done _ ⟨hcalloc, of_decide_eq_true hopen, Int.not_lt.mp hset⟩ rfl rfl
        rw [hasked]
        refine .asks rfl rfl fun live hlive => hlive.acquire.acquire.congr ?_
        rw [zero_add, Multiset.cons_swap, Multiset.insert_eq_cons, Multiset.cons_add,
          Multiset.singleton_add]
    · rw [hacq']
      apply CreateTun.failed fun hok => of_decide_eq_false hopen hok.openTun
      have hasked : requestsMade (createAttempts name o) = [] := by
        simp [createAttempts, requestsMade, hcalloc, hopen]
      rw [hasked]
      exact .quiet rfl rfl fun live hlive => holds_borrowed hlive
  · rw [hacq]
    apply CreateTun.failed fun hok => Bool.false_ne_true (hcalloc.symm.trans hok.calloc)
    have hasked : requestsMade (createAttempts name o) = [] := by
      simp [createAttempts, requestsMade, hcalloc]
    rw [hasked]
    exact .quiet rfl rfl fun live hlive => hlive

inductive ConfigureTun (tun : TunDevice) (ip netmask : Option Text) (mtu : Int)
    (o : TunConfigureOutcomes) (s : Host) : Int × TunDevice × Host → Prop
  | done {s' : Host} (ipText maskText : Text) (hok : o.Succeeds ip netmask)
      (hip : ip = some ipText) (hnetmask : netmask = some maskText)
      (hdid : Did s (requestsMade (configureAttempts (tun.name.take 15) ip netmask mtu o)) [] 0 0
        s') :
      ConfigureTun tun ip netmask mtu o s
        (0, { tun with ip := ipText, netmask := maskText, mtu := mtu }, s')
  | failed {s' : Host} (hfail : ¬ o.Succeeds ip netmask)
      (hdid : Did s (requestsMade (configureAttempts (tun.name.take 15) ip netmask mtu o)) [] 0 0
        s') :
      ConfigureTun tun ip netmask mtu o s (-1, tun, s')

section
variable {tun : TunDevice} {ip netmask : Option Text} {mtu : Int} {o : TunConfigureOutcomes}
  {s s' : Host}

theorem ConfigureTun.refused {requests : List Ioctl} (hfail : ¬ o.Succeeds ip netmask)
    (hasked : requestsMade (configureAttempts (tun.name.take 15) ip netmask mtu o) = requests)
    (hioctls : s'.ioctls = s.ioctls ++ requests) (hfiles : s'.files = s.files)
    (hheap : s'.heap = Heap.release { s.heap with next := s.heap.next + 1 } s.heap.next) :
    ConfigureTun tun ip netmask mtu o s (-1, tun, s') := by
  apply ConfigureTun.failed hfail
  rw [hasked]
  apply Did.asks hioctls hfiles
  intro live hlive
  rw [hheap]
  exact holds_borrowed hlive

end

theorem take_dotted {text : Text} {addr : Bytes} (h : inetPton4 text = some addr) :
    text.take 15 = text := by
  obtain ⟨hlen, rfl⟩ := (inetPton4_iff _ _).mp h
  exact List.take_of_length_le (inetNtop4_length_le hlen)

theorem tunDeviceConfigure_cases (tun : TunDevice) (ip netmask : Option Text) (mtu : Int)
    (o : TunConfigureOutcomes) (s : Host) :
    ConfigureTun tun ip netmask mtu o s (tunDeviceConfigure tun ip netmask mtu o s) := by
  unfold tunDeviceConfigure
  split
  · rename_i ip netmask
    rcases host_acquire_cases s (decide (0 ≤ o.socket)) with ⟨hsocket, hacq⟩ | ⟨hsocket, hacq⟩
    · rw [hacq]
      dsimp only
      cases hip : inetPton4 ip with
      | none =>
          exact .refused (fun hok => by simpa [hip] using dotted_iff.mp hok.ip)
            (by simp [configureAttempts, requestsMade, hsocket, hip])
            (List.append_nil _).symm rfl rfl
      | some addr =>
          dsimp only
          by_cases hset : o.sifAddr < 0
          · rw [if_pos hset]
            have hset' : ¬ 0 ≤ o.sifAddr := Int.not_le.mpr hset
            exact .refused (fun hok => hset' hok.sifAddr)
              (by simp [configureAttempts, requestsMade, addressIn, hsocket, hip, hset']; rfl)
              rfl rfl rfl
          · rw [if_neg hset]
            rw [Int.not_lt] at hset
            cases hmask : inetPton4 netmask with
            | none =>
                exact .refused (fun hok => by simpa [hmask] using dotted_iff.mp hok.netmask)
                  (by simp [configureAttempts, requestsMade, addressIn, hsocket, hip,
                    hset, hmask]; rfl)
                  rfl rfl rfl
            | some mask =>
                dsimp only
                by_cases hsetMask : o.sifNetmask < 0
                · rw [if_pos hsetMask]
                  have hsetMask' : ¬ 0 ≤ o.sifNetmask := Int.not_le.mpr hsetMask
                  exact .refused (fun hok => hsetMask' hok.sifNetmask)
                    (by simp [configureAttempts, requestsMade, addressIn, hsocket, hip, hset, hmask,
                      hsetMask']; rfl) (List.append_assoc _ _ _) rfl rfl
                · rw [if_neg hsetMask]
                  rw [Int.not_lt] at hsetMask
                  have hasked : requestsMade (configureAttempts (tun.name.take 15) (some ip)
                      (some netmask) mtu o) = [.siocSifAddr (tun.name.take 15) addr,
                        .siocSifNetmask (tun.name.take 15) mask,
                        .siocSifMtu (tun.name.take 15) mtu] := by
                    simp [configureAttempts, requestsMade, addressIn, hsocket, hip, hset,
                      hmask, hsetMask]
                  by_cases hsetMtu : o.sifMtu < 0
                  · rw [if_pos hsetMtu]
                    exact .refused (fun hok => absurd hok.sifMtu (Int.not_le.mpr hsetMtu)) hasked
                      (by simp [Host.ioctl, Host.release, ifNamSiz]) rfl rfl
                  · rw [if_neg hsetMtu, take_dotted hip, take_dotted hmask]
                    apply ConfigureTun.done ip netmask ⟨dotted_iff.mpr (by simp [hip]),
                      dotted_iff.mpr (by simp [hmask]), of_decide_eq_true hsocket, hset, hsetMask,
                      Int.not_lt.mp hsetMtu⟩ rfl rfl
                    rw [hasked]
                    exact .asks (by simp [Host.ioctl, Host.release, ifNamSiz]) rfl
                      fun live hlive => holds_borrowed hlive
    · rw [hacq]
      apply ConfigureTun.failed fun hok => of_decide_eq_false hsocket hok.socket
      have hasked : requestsMade
        (configureAttempts (tun.name.take 15) (some ip) (some netmask) mtu o) =
          [] := by
        simp [configureAttempts, requestsMade, hsocket]
      rw [hasked]
      exact .quiet rfl rfl fun live hlive => hlive
  · rename_i hnone
    have hmissing : (ip.isSome && netmask.isSome) = false := by
      cases ip with
      | none => rfl
      | some ip =>
          cases netmask with
          | none => rfl
          | some netmask => exact absurd rfl (hnone ip netmask rfl)
    have hasked : requestsMade (configureAttempts (tun.name.take 15) ip netmask mtu o) = [] := by
      simp only [configureAttempts, requestsMade, hmissing]
      rfl
    apply ConfigureTun.failed
    · intro hok
      obtain ⟨_, _, rfl⟩ := hok.ip
      obtain ⟨_, _, rfl⟩ := hok.netmask
      exact hnone _ _ rfl rfl
    · rw [hasked]
      exact .quiet rfl rfl fun live hlive => hlive

inductive SetFlags (change : IfFlags → IfFlags) (tun : TunDevice) (o : TunFlagsOutcomes)
    (s : Host) : Int × Host → Prop
  | done {s' : Host} (hok : o.Succeeds)
      (hdid : Did s (requestsMade (flagAttempts change (tun.name.take 15) o)) [] 0 0 s') :
      SetFlags change tun o s (0, s')
  | failed {s' : Host} (hfail : ¬ o.Succeeds)
      (hdid : Did s (requestsMade (flagAttempts change (tun.name.take 15) o)) [] 0 0 s') :
      SetFlags change tun o s (-1, s')

theorem tunDeviceSetFlags_cases (change : IfFlags → IfFlags) (tun : TunDevice)
    (o : TunFlagsOutcomes) (s : Host) :
    SetFlags change tun o s (tunDeviceSetFlags change tun o s) := by
  unfold tunDeviceSetFlags
  rcases host_acquire_cases s (decide (0 ≤ o.socket)) with ⟨hsocket, hacq⟩ | ⟨hsocket, hacq⟩
  · rw [hacq]
    dsimp only
    by_cases hget : o.gifFlags < 0
    · rw [if_pos hget]
      have hget' : ¬ 0 ≤ o.gifFlags := Int.not_le.mpr hget
      have hasked : requestsMade (flagAttempts change (tun.name.take 15) o) =
          [.siocGifFlags (tun.name.take 15)] := by
        simp [flagAttempts, requestsMade, hsocket, hget']
      apply SetFlags.failed fun hok => hget' hok.gifFlags
      rw [hasked]
      exact .asks rfl rfl fun live hlive => holds_borrowed hlive
    · rw [if_neg hget]
      rw [Int.not_lt] at hget
      have hasked : requestsMade (flagAttempts change (tun.name.take 15) o) =
          flagRequests change (tun.name.take 15) o := by
        simp only [flagAttempts, requestsMade, hsocket, decide_eq_true hget, if_true, ite_self]
        rfl
      by_cases hset : o.sifFlags < 0
      · rw [if_pos hset]
        apply SetFlags.failed fun hok => absurd hok.sifFlags (Int.not_le.mpr hset)
        rw [hasked]
        exact .asks (List.append_assoc _ _ _) rfl fun live hlive => holds_borrowed hlive
      · rw [if_neg hset]
        apply SetFlags.done ⟨of_decide_eq_true hsocket, hget, Int.not_lt.mp hset⟩
        rw [hasked]
        exact .asks (List.append_assoc _ _ _) rfl fun live hlive => holds_borrowed hlive
  · rw [hacq]
    apply SetFlags.failed fun hok => of_decide_eq_false hsocket hok.socket
    have hasked : requestsMade (flagAttempts change (tun.name.take 15) o) = [] := by
      simp [flagAttempts, requestsMade, hsocket]
    rw [hasked]
    exact .quiet rfl rfl fun live hlive => hlive

theorem tunDeviceDisableIpv6_did {name : Text} (hname : name.length ≤ 15)
    (o : DisableIpv6Outcomes) (s : Host) :
    Did s [] (ipv6Write name o) 0 0 (tunDeviceDisableIpv6 name o s).2 := by
  have hpath : ("/proc/sys/net/ipv6/conf/".toList ++ name ++ "/disable_ipv6".toList).take 255 =
      "/proc/sys/net/ipv6/conf/".toList ++ name ++ "/disable_ipv6".toList := by
    apply List.take_of_length_le
    have hdir : "/proc/sys/net/ipv6/conf/".toList.length = 24 := rfl
    have hfile : "/disable_ipv6".toList.length = 13 := rfl
    rw [List.length_append, List.length_append, hdir, hfile]
    omega
  unfold tunDeviceDisableIpv6
  rw [hpath]
  unfold ipv6Write
  rcases host_acquire_cases s o.fopen with ⟨hopen, hacq⟩ | ⟨hopen, hacq⟩
  · rw [hacq]
    dsimp only
    by_cases hprint : o.fprintf < 0
    · rw [if_pos hprint, if_neg fun h => absurd h.2 (Int.not_le.mpr hprint)]
      exact .quiet rfl rfl fun live hlive => holds_borrowed hlive
    · rw [if_neg hprint, if_pos ⟨hopen, Int.not_lt.mp hprint⟩]
      exact ⟨(List.append_nil _).symm, rfl, fun live hlive => holds_borrowed hlive⟩
  · rw [hacq, if_neg fun h => Bool.false_ne_true (hopen.symm.trans h.1)]
    exact .quiet rfl rfl fun live hlive => hlive

theorem tunDeviceDestroy_did {tun : TunDevice} (hfd : 0 ≤ tun.fd) (s : Host) :
    Did s [] [] {tun.self, tun.file} 0 (tunDeviceDestroy tun s) := by
  rw [tunDeviceDestroy, if_pos hfd]
  refine .quiet rfl rfl fun live hlive => ?_
  rw [Multiset.insert_eq_cons, Multiset.cons_add, Multiset.singleton_add,
    Multiset.cons_swap] at hlive
  exact hlive.release.release.congr (zero_add live).symm

/-- `new_tun_device` gives a device that is set up, or it keeps nothing. -/
inductive NewTun (ifname ip netmask : Option Text) (mtu : Int) (o : TunOutcomes) (s : Host) :
    Option TunDevice × Host → Prop
  | done {s' : Host} (tun : TunDevice) (hok : o.Succeeds ip netmask)
      (hsetUp : tun.SetUp ip netmask mtu o)
      (hdid : Did s (requestsMade (tunAttempts ifname ip netmask mtu o))
        (ipv6Write tun.name o.ipv6) 0 {tun.self, tun.file} s') :
      NewTun ifname ip netmask mtu o s (some tun, s')
  | failed {s' : Host} (hfail : ¬ o.Succeeds ip netmask)
      (hdid : Did s (requestsMade (tunAttempts ifname ip netmask mtu o)) [] 0 0 s') :
      NewTun ifname ip netmask mtu o s (none, s')

theorem newTunDevice_cases (ifname ip netmask : Option Text) (mtu : Int) (o : TunOutcomes)
    (s : Host) : NewTun ifname ip netmask mtu o s (newTunDevice ifname ip netmask mtu o s) := by
  unfold newTunDevice
  generalize hcreate : tunDeviceCreate ifname o.create s = r
  have hcases := tunDeviceCreate_cases ifname o.create s
  rw [hcreate] at hcases
  cases hcases with
  | failed hfail hdid =>
      apply NewTun.failed fun hok => hfail hok.create
      rw [tunAttempts, List.append_assoc,
        requestsMade_append_of_fails (mt createAttempts_all.mp hfail)]
      exact hdid
  | @done s₁ tun hcreated hfd hname hdid =>
      have hopen : 0 ≤ tun.fd := hfd ▸ hcreated.openTun
      have htake : tun.name.take 15 = tun.name := by
        rw [hname, List.take_take, Nat.min_self]
      have hall : (createAttempts ifname o.create).all Attempt.ok = true :=
        createAttempts_all.mpr hcreated
      have hafterCreate := fun bs => requestsMade_append_of_all hall bs
      dsimp only
      generalize hconfigure : tunDeviceConfigure tun ip netmask mtu o.configure s₁ = r
      have hcases := tunDeviceConfigure_cases tun ip netmask mtu o.configure s₁
      rw [hconfigure] at hcases
      cases hcases with
      | failed hfail hdid' =>
          rw [htake, hname] at hdid'
          have hback := (hdid.within hdid').trans (tunDeviceDestroy_did hopen _)
          rw [List.append_nil, List.append_nil] at hback
          apply NewTun.failed fun hok => hfail hok.configure
          rw [tunAttempts, List.append_assoc, hafterCreate,
            requestsMade_append_of_fails (mt configureAttempts_all.mp hfail)]
          exact hback
      | @done s₂ ipText maskText hconfigured hip hnetmask hdid' =>
          rw [htake, hname] at hdid'
          have hso := hdid.within hdid'
          have hasked : requestsMade (tunAttempts ifname ip netmask mtu o) =
              requestsMade (createAttempts ifname o.create) ++
                requestsMade (configureAttempts (o.create.ifrName.take 15) ip netmask mtu
                  o.configure) ++
                requestsMade (flagAttempts (fun flags => flags ||| (iffUp ||| iffRunning))
                  (o.create.ifrName.take 15) o.up) := by
            rw [tunAttempts, List.append_assoc, hafterCreate,
              requestsMade_append_of_all (configureAttempts_all.mpr hconfigured), List.append_assoc]
          simp only [tunDeviceUp]
          generalize hup : tunDeviceSetFlags (fun flags => flags ||| (iffUp ||| iffRunning))
            { tun with ip := ipText, netmask := maskText, mtu := mtu } o.up s₂ = r
          have hcases := tunDeviceSetFlags_cases (fun flags => flags ||| (iffUp ||| iffRunning))
            { tun with ip := ipText, netmask := maskText, mtu := mtu } o.up s₂
          rw [hup] at hcases
          cases hcases with
          | failed hfail hdid'' =>
              rw [show TunDevice.name _ = tun.name from rfl, htake, hname] at hdid''
              have hback := (hso.within hdid'').trans (tunDeviceDestroy_did hopen _)
              rw [List.append_nil, List.append_nil] at hback
              apply NewTun.failed fun hok => hfail hok.up
              rw [hasked]
              exact hback
          | @done s₃ hraised hdid'' =>
              rw [show TunDevice.name _ = tun.name from rfl, htake, hname] at hdid''
              have hlen : tun.name.length ≤ 15 := by
                rw [hname]
                exact List.length_take_le _ _
              have hipv6 := tunDeviceDisableIpv6_did hlen o.ipv6 s₃
              have hall := (hso.within hdid'').within hipv6
              rw [List.append_nil, ← hasked] at hall
              exact .done _ ⟨hcreated, hconfigured, hraised⟩
                ⟨hfd, hname, hip.symm, hnetmask.symm, rfl⟩ hall

/-- Whether it can be taken down or not, a device that is destroyed leaves nothing. -/
theorem tunDevice_end_holds {tun : TunDevice} (hfd : 0 ≤ tun.fd) (down : TunFlagsOutcomes)
    {s : Host} {live : Multiset Obj} (hheld : Holds s.heap ({tun.self, tun.file} + live)) :
    Holds (tunDeviceDestroy tun (tunDeviceDown tun down s).2).heap live := by
  have hflags := tunDeviceSetFlags_cases (fun flags => flags &&& ~~~iffUp) tun down s
  have hdestroy := tunDeviceDestroy_did hfd (tunDeviceDown tun down s).2
  have hdown : Holds (tunDeviceDown tun down s).2.heap ({tun.self, tun.file} + live) := by
    unfold tunDeviceDown
    generalize tunDeviceSetFlags (fun flags => flags &&& ~~~iffUp) tun down s = r at *
    rw [← zero_add ({tun.self, tun.file} + live)] at hheld ⊢
    cases hflags with
    | done _ hdid => exact hdid.holds _ hheld
    | failed _ hdid => exact hdid.holds _ hheld
  exact (hdestroy.holds live hdown).congr (zero_add live)

/-- `new_tun_device` succeeds exactly when all it needs does, whatever becomes of
IPv6, and both addresses are written as `inet_ntop` writes them.  It asks for
changes of its own interface only, in a fixed order and up to the first attempt
that fails; a failure leaves nothing open or allocated.  A device keeps its two
addresses in full, and when it is taken down, which may fail, and destroyed
nothing of it is left either. -/
theorem newTunDevice_lifecycle (ifname ip netmask : Option Text) (mtu : Int) (o : TunOutcomes)
    {s : Host} {live : Multiset Obj} (hlive : Holds s.heap live) :
    let r := newTunDevice ifname ip netmask mtu o s
    (r.1.isSome = true ↔ o.Succeeds ip netmask) ∧
      (r.2.ioctls = s.ioctls ++ requestsMade (tunAttempts ifname ip netmask mtu o) ∧
        requestsMade (tunAttempts ifname ip netmask mtu o) <+:
          tunRequests ifname ip netmask mtu o) ∧
      (r.1 = none → r.2.files = s.files ∧ Holds r.2.heap live) ∧
      ∀ tun, r.1 = some tun → tun.SetUp ip netmask mtu o ∧
        r.2.ioctls = s.ioctls ++ tunRequests ifname ip netmask mtu o ∧
        r.2.files = s.files ++ ipv6Write tun.name o.ipv6 ∧
        Holds r.2.heap ({tun.self, tun.file} + live) ∧
        ∀ down, Holds (tunDeviceDestroy tun (tunDeviceDown tun down r.2).2).heap live := by
  have hcases := newTunDevice_cases ifname ip netmask mtu o s
  have hpart := requestsMade_part (tunAttempts ifname ip netmask mtu o)
  dsimp only
  generalize newTunDevice ifname ip netmask mtu o s = r at *
  rw [← zero_add live] at hlive
  cases hcases with
  | failed hfail hdid =>
      refine ⟨iff_of_false (by simp) hfail, ⟨hdid.ioctls, hpart⟩, fun _ => ?_, nofun⟩
      exact ⟨hdid.files.trans (List.append_nil _), (hdid.holds live hlive).congr (zero_add live)⟩
  | @done s' tun hok hsetUp hdid =>
      refine ⟨iff_of_true rfl hok, ⟨hdid.ioctls, hpart⟩, nofun, ?_⟩
      intro tun' htun
      obtain rfl := Option.some.inj htun
      have hheld := hdid.holds live hlive
      have hopen : 0 ≤ tun.fd := hsetUp.fd ▸ hok.create.openTun
      have hall := hdid.ioctls
      rw [requestsMade_tunAttempts hok] at hall
      exact ⟨hsetUp, hall, hdid.files, hheld, fun down => tunDevice_end_holds hopen down hheld⟩

def tunOutcomes : TunOutcomes where
  create := ⟨true, 6, 0, "tun0".toList⟩
  configure := ⟨7, 0, 0, 0⟩
  up := ⟨7, 0, 0x1090, 0⟩
  ipv6 := ⟨false, 0⟩

/-- The device of a client, on a system that keeps IPv6 enabled, and what is asked
for when the address is refused. -/
theorem newTunDevice_lifecycle_client :
    (let r := newTunDevice (some "tun0".toList) (some "10.8.0.1".toList)
      (some "255.255.255.0".toList) 1400 tunOutcomes ⟨Heap.empty, [], []⟩
    r.1.isSome = true ∧ r.2.ioctls.getLast? = some (.siocSifFlags "tun0".toList 0x10d1)) ∧
    (newTunDevice (some "tun0".toList) (some "10.8.0.1".toList) (some "255.255.255.0".toList) 1400
      { tunOutcomes with configure := ⟨7, -1, 0, 0⟩ } ⟨Heap.empty, [], []⟩).2.ioctls =
        [.tunSetIff "tun0".toList iffTunNoPi, .siocSifAddr "tun0".toList [10, 8, 0, 1]] := by
  have hok : tunOutcomes.Succeeds (some "10.8.0.1".toList) (some "255.255.255.0".toList) := by
    refine ⟨⟨rfl, by decide, by decide⟩, ⟨⟨[10, 8, 0, 1], rfl, rfl⟩, ⟨[255, 255, 255, 0], rfl, rfl⟩,
      by decide, by decide, by decide, by decide⟩, ⟨by decide, by decide, by decide⟩⟩
  obtain ⟨hiff, -, -, hdone⟩ := newTunDevice_lifecycle (some "tun0".toList)
    (some "10.8.0.1".toList) (some "255.255.255.0".toList) 1400 tunOutcomes
    (s := ⟨Heap.empty, [], []⟩) holds_empty
  refine ⟨⟨hiff.mpr hok, ?_⟩, ?_⟩
  · obtain ⟨tun, htun⟩ := Option.isSome_iff_exists.mp (hiff.mpr hok)
    rw [(hdone tun htun).2.1]
    rfl
  · obtain ⟨-, ⟨hasked, -⟩, -⟩ := newTunDevice_lifecycle (some "tun0".toList)
      (some "10.8.0.1".toList) (some "255.255.255.0".toList) 1400
      { tunOutcomes with configure := ⟨7, -1, 0, 0⟩ } (s := ⟨Heap.empty, [], []⟩) holds_empty
    rw [hasked]
    rfl

end Dataplane.Proofs.Startup
