import Dataplane.ProofSupport.Bytes

/-!
# `src/utils.c`: socket addresses and IP packets

A `struct sockaddr` and a packet are byte buffers, and the fields of the header
structures are read at their offsets.  The machine is little-endian.
-/

namespace Dataplane.Model

open ProofSupport

/-! ## Fields of a buffer -/

def field16 (buf : Bytes) (off : Nat) : Nat :=
  (buf.getD off 0).toNat + (buf.getD (off + 1) 0).toNat * 2 ^ 8

def field32 (buf : Bytes) (off : Nat) : Nat := field16 buf off + field16 buf (off + 2) * 2 ^ 16

def fieldBytes (buf : Bytes) (off n : Nat) : Bytes :=
  (List.range n).map fun i => buf.getD (off + i) 0

def ntohs16 (buf : Bytes) (off : Nat) : Nat :=
  (buf.getD off 0).toNat * 2 ^ 8 + (buf.getD (off + 1) 0).toNat

/-! ## Socket addresses -/

def afInet : Nat := 2

def afInet6 : Nat := 10

def saFamily (addr : Bytes) : Nat := field16 addr 0

/-- `sin->sin_port`, which stands where `sin6->sin6_port` stands -/
def sinPort (addr : Bytes) : Nat := field16 addr 2

def sinAddr (addr : Bytes) : Nat := field32 addr 4

def sin6Addr (addr : Bytes) : Bytes := fieldBytes addr 8 16

/-- A `uint32_t` difference. -/
def sub32 (x y : Nat) : Nat := (x + 2 ^ 32 - y) % 2 ^ 32

/-- The conversion of a `uint32_t` to `int`. -/
def toInt32 (n : Nat) : Int := if n < 2 ^ 31 then n else (n : Int) - 2 ^ 32

/-- `memcmp`: the difference of the first two bytes that differ. -/
def memcmp : Bytes → Bytes → Int
  | a :: as, b :: bs => if a = b then memcmp as bs else (a.toNat : Int) - b.toNat
  | _, _ => 0

def addrHash (addr : Bytes) (bucketCount : Nat) : Nat :=
  let hash :=
    if saFamily addr = afInet then sinAddr addr ^^^ sinPort addr
    else if saFamily addr = afInet6 then
      [0, 4, 8, 12].foldl (fun hash i => hash ^^^ field32 (sin6Addr addr) i) 0 ^^^ sinPort addr
    else 0
  hash % bucketCount % 2 ^ 32

def addrCompare (a b : Bytes) : Int :=
  if saFamily a ≠ saFamily b then (saFamily a : Int) - saFamily b
  else if saFamily a = afInet then
    if sinAddr a ≠ sinAddr b then toInt32 (sub32 (sinAddr a) (sinAddr b))
    else (sinPort a : Int) - sinPort b
  else if saFamily a = afInet6 then
    let cmp := memcmp (sin6Addr a) (sin6Addr b)
    if cmp ≠ 0 then cmp else (sinPort a : Int) - sinPort b
  else 0

/-! ## IP packets -/

def ipVersion (packet : Bytes) : Nat := (packet.getD 0 0).toNat >>> 4

/-- `validate_ip_packet`; `tot_len` and `ihl` are fields of `struct iphdr`. -/
def validateIpPacket (packet : Bytes) (len : Nat) : Bool :=
  if len < 20 then false
  else
    let version := (packet.getD 0 0).toNat >>> 4
    if version = 4 then
      let totalLen := (packet.getD 2 0).toNat * 256 + (packet.getD 3 0).toNat
      if len < totalLen then false
      else if totalLen < 20 then false
      else
        let ihl := (packet.getD 0 0).toNat % 16
        if ihl < 5 then false else true
    else if version = 6 then if len < 40 then false else true
    else false

/-- `get_ipv4_destination`; `daddr` is a field of `struct iphdr`. -/
def getIpv4Destination (packet : Bytes) (len : Nat) : Nat :=
  if len < 20 then 0 else if ipVersion packet ≠ 4 then 0 else field32 packet 16

def getIpv4Source (packet : Bytes) (len : Nat) : Nat :=
  if len < 20 then 0 else if ipVersion packet ≠ 4 then 0 else field32 packet 12

/-! ## `inet_ntop` -/

/-- `inet_ntop(AF_INET, ..)` on the four bytes of an address. -/
def inetNtop4 (src : Bytes) : String :=
  let a := (src.getD 0 0).toNat
  let b := (src.getD 1 0).toNat
  let c := (src.getD 2 0).toNat
  let d := (src.getD 3 0).toNat
  s!"{a}.{b}.{c}.{d}"

/-- A run of 16-bit words that are zero. -/
structure ZeroRun where
  base : Nat
  len : Nat

/-- The better of two runs, the one to the left if they are equally long. -/
def ZeroRun.better : Option ZeroRun → Option ZeroRun → Option ZeroRun
  | best, none => best
  | none, some cur => some cur
  | some best, some cur => if best.len < cur.len then some cur else some best

/-- The best run among the words from number `i` on and the runs `best`, which
is over, and `cur`, which ends in front of them. -/
def zeroRun (best cur : Option ZeroRun) (i : Nat) : List Nat → Option ZeroRun
  | [] => ZeroRun.better best cur
  | w :: ws =>
      if w = 0 then
        let cur := match cur with
          | none => ⟨i, 1⟩
          | some cur => { cur with len := cur.len + 1 }
        zeroRun best (some cur) (i + 1) ws
      else zeroRun (ZeroRun.better best cur) none (i + 1) ws

/-- The run that `::` stands for: at least two words. -/
def compressed (words : List Nat) : Option ZeroRun :=
  (zeroRun none none 0 words).filter fun run => decide (2 ≤ run.len)

/-- The text for the words from number `i` on; an IPv4 address in disguise ends
in its dotted form. -/
def ntopWords (src : Bytes) (run : Option ZeroRun) (disguised : Bool) (i : Nat) :
    List Nat → String
  | [] => ""
  | w :: ws =>
      if run.any fun run => decide (run.base ≤ i ∧ i < run.base + run.len) then
        (if run.any fun run => decide (i = run.base) then ":" else "") ++
          ntopWords src run disguised (i + 1) ws
      else (if i ≠ 0 then ":" else "") ++
        if i = 6 ∧ disguised = true then inetNtop4 (fieldBytes src 12 4)
        else String.ofList (Nat.toDigits 16 w) ++ ntopWords src run disguised (i + 1) ws

/-- `inet_ntop(AF_INET6, ..)` on the sixteen bytes of an address. -/
def inetNtop6 (src : Bytes) : String :=
  let words := (List.range 8).map fun i => ntohs16 src (2 * i)
  let run := compressed words
  let disguised := run.any fun run => decide (run.base = 0 ∧
    (run.len = 6 ∨ (run.len = 5 ∧ words.getD 5 0 = 0xffff)))
  ntopWords src run disguised 0 words ++
    if run.any fun run => decide (run.base + run.len = 8) then ":" else ""

/-! ## Logging -/

inductive LogLevel
  | debug
  | info
  | warn
  | error
  deriving DecidableEq

def LogLevel.value : LogLevel → Nat
  | .debug => 0
  | .info => 1
  | .warn => 2
  | .error => 3

/-- What `log_debug` writes to `stderr` when the level is set to `current`. -/
def logDebug (current : LogLevel) (text : String) : String :=
  if LogLevel.debug.value < current.value then "" else "[DEBUG] " ++ text ++ "\n"

/-- The text that `print_ip_packet_info` hands to `log_debug`. -/
def ipPacketInfo (packet : Bytes) (len : Nat) (msg : String) : String :=
  if len < 20 then s!"Packet too short: {len} bytes"
  else
    let version := ipVersion packet
    if version = 4 then
      let src := inetNtop4 (fieldBytes packet 12 4)
      let dst := inetNtop4 (fieldBytes packet 16 4)
      let protocol := (packet.getD 9 0).toNat
      let totLen := ntohs16 packet 2
      s!"IPv4 packet {msg}: {src} -> {dst}, proto={protocol}, len={totLen}"
    else if version = 6 then
      let src := inetNtop6 (fieldBytes packet 8 16)
      let dst := inetNtop6 (fieldBytes packet 24 16)
      let nextHeader := (packet.getD 6 0).toNat
      let payloadLen := ntohs16 packet 4
      s!"IPv6 packet {msg}: {src} -> {dst}, next={nextHeader}, len={payloadLen}"
    else s!"Unknown IP version: {version}"

def printIpPacketInfo (current : LogLevel) (packet : Bytes) (len : Nat) (msg : String) : String :=
  logDebug current (ipPacketInfo packet len msg)

end Dataplane.Model
