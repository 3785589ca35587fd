import Dataplane.Model.Startup

/-!
# `src/tun_device.c`: the TUN device of an edge

The system calls are parameters, as in the start-up.  What is asked of the
network interfaces is kept in the order in which it is asked, and so is what is
written under `/proc`.  A C string is the list of its characters up to the NUL.
-/

namespace Dataplane.Model.Startup

open ProofSupport

abbrev Text := List Char

/-! ## Requests to the interfaces -/

/-- `IFNAMSIZ`, the size of `ifr_name` -/
def ifNamSiz : Nat := 16

abbrev IfFlags := BitVec 16

/-- `IFF_TUN | IFF_NO_PI` -/
def iffTunNoPi : IfFlags := 0x1001

def iffUp : IfFlags := 0x0001

def iffRunning : IfFlags := 0x0040

/-- An `ioctl` with what the kernel reads of the `struct ifreq`. -/
inductive Ioctl
  | tunSetIff (name : Text) (flags : IfFlags)
  | siocSifAddr (name : Text) (addr : Bytes)
  | siocSifNetmask (name : Text) (addr : Bytes)
  | siocSifMtu (name : Text) (mtu : Int)
  | siocGifFlags (name : Text)
  | siocSifFlags (name : Text) (flags : IfFlags)
  deriving DecidableEq

/-- A process with what it has asked for and written. -/
structure Host where
  heap : Heap
  ioctls : List Ioctl
  files : List (Text × Text)

namespace Host

def acquire (s : Host) (ok : Bool) : Option Obj × Host :=
  ((s.heap.acquire ok).1, { s with heap := (s.heap.acquire ok).2 })

def release (s : Host) (o : Obj) : Host := { s with heap := s.heap.release o }

def ioctl (s : Host) (request : Ioctl) : Host := { s with ioctls := s.ioctls ++ [request] }

def write (s : Host) (path text : Text) : Host := { s with files := s.files ++ [(path, text)] }

end Host

/-! ## `inet_pton` -/

/-- `inet_pton(AF_INET, ..)` in the middle of a text: the octets it is through
with, the one it reads, and whether that has a digit. -/
structure Octets where
  done : List Nat
  value : Nat
  sawDigit : Bool

def Octets.count (s : Octets) : Nat := s.done.length + s.sawDigit.toNat

/-- One character of `inet_pton(AF_INET, ..)`.  An octet has no leading zero. -/
def Octets.step (s : Octets) (ch : Char) : Option Octets :=
  if ch.isDigit then
    let new := s.value * 10 + (ch.toNat - '0'.toNat)
    if s.sawDigit ∧ s.value = 0 then none
    else if new > 255 then none
    else if ¬ s.sawDigit ∧ s.count + 1 > 4 then none
    else some { s with value := new, sawDigit := true }
  else if ch = '.' ∧ s.sawDigit then
    if s.count = 4 then none else some ⟨s.done ++ [s.value], 0, false⟩
  else none

/-- `inet_pton(AF_INET, src, ..)`: the four bytes, when the answer is 1. -/
def inetPton4 (src : Text) : Option Bytes :=
  match src.foldlM Octets.step ⟨[], 0, false⟩ with
  | none => none
  | some s => if s.count < 4 then none else some ((s.done ++ [s.value]).map UInt8.ofNat)

/-! ## `tun_device_create` -/

/-- `tun_device_t`; `file` is the one behind `fd`. -/
structure TunDevice where
  self : Obj
  fd : Int
  file : Obj
  name : Text
  ip : Text
  netmask : Text
  mtu : Int

/-- `calloc`, `open` and `ioctl(TUNSETIFF)` with the name it leaves in `ifr_name`. -/
structure TunCreateOutcomes where
  calloc : Bool
  openTun : Int
  tunSetIff : Int
  ifrName : Text

def tunDeviceCreate (name : Option Text) (o : TunCreateOutcomes) (s : Host) :
    Option TunDevice × Host :=
  match s.acquire o.calloc with
  | (none, s) => (none, s)
  | (some tun, s) =>
      match s.acquire (decide (0 ≤ o.openTun)) with
      | (none, s) => (none, s.release tun)
      | (some file, s) =>
          let ifrName := (name.getD []).take (ifNamSiz - 1)
          let s := s.ioctl (.tunSetIff ifrName iffTunNoPi)
          if o.tunSetIff < 0 then (none, (s.release file).release tun)
          else (some ⟨tun, o.openTun, file, o.ifrName.take (ifNamSiz - 1), [], [], 0⟩, s)

/-! ## `tun_device_configure` -/

/-- `socket` and the three `ioctl`s. -/
structure TunConfigureOutcomes where
  socket : Int
  sifAddr : Int
  sifNetmask : Int
  sifMtu : Int

/-- `tun_device_configure`: the result and `*tun`.  `ip` and `netmask` are arrays
of 16. -/
def tunDeviceConfigure (tun : TunDevice) (ip netmask : Option Text) (mtu : Int)
    (o : TunConfigureOutcomes) (s : Host) : Int × TunDevice × Host :=
  match ip, netmask with
  | some ip, some netmask =>
      match s.acquire (decide (0 ≤ o.socket)) with
      | (none, s) => (-1, tun, s)
      | (some sockfd, s) =>
          let ifrName := tun.name.take (ifNamSiz - 1)
          match inetPton4 ip with
          | none => (-1, tun, s.release sockfd)
          | some addr =>
              let s := s.ioctl (.siocSifAddr ifrName addr)
              if o.sifAddr < 0 then (-1, tun, s.release sockfd)
              else match inetPton4 netmask with
                | none => (-1, tun, s.release sockfd)
                | some mask =>
                    let s := s.ioctl (.siocSifNetmask ifrName mask)
                    if o.sifNetmask < 0 then (-1, tun, s.release sockfd)
                    else
                      let s := s.ioctl (.siocSifMtu ifrName mtu)
                      if o.sifMtu < 0 then (-1, tun, s.release sockfd)
                      else (0, { tun with ip := ip.take 15, netmask := netmask.take 15, mtu },
                        s.release sockfd)
  | _, _ => (-1, tun, s)

/-! ## `tun_device_up` and `tun_device_down` -/

/-- `fopen` and `fprintf`. -/
structure DisableIpv6Outcomes where
  fopen : Bool
  fprintf : Int

/-- `tun_device_disable_ipv6`; `path` is an array of 256. -/
def tunDeviceDisableIpv6 (ifname : Text) (o : DisableIpv6Outcomes) (s : Host) : Int × Host :=
  let path := ("/proc/sys/net/ipv6/conf/".toList ++ ifname ++ "/disable_ipv6".toList).take 255
  match s.acquire o.fopen with
  | (none, s) => (-1, s)
  | (some f, s) =>
      if o.fprintf < 0 then (-1, s.release f)
      else (0, (s.write path "1\n".toList).release f)

/-- `socket`, `ioctl(SIOCGIFFLAGS)` with the flags it leaves in `ifr_flags`, and
`ioctl(SIOCSIFFLAGS)`. -/
structure TunFlagsOutcomes where
  socket : Int
  gifFlags : Int
  ifrFlags : IfFlags
  sifFlags : Int

/-- What `tun_device_up` and `tun_device_down` have in common: they read the flags
of the interface, change them and write them back. -/
def tunDeviceSetFlags (change : IfFlags → IfFlags) (tun : TunDevice) (o : TunFlagsOutcomes)
    (s : Host) : Int × Host :=
  match s.acquire (decide (0 ≤ o.socket)) with
  | (none, s) => (-1, s)
  | (some sockfd, s) =>
      let ifrName := tun.name.take (ifNamSiz - 1)
      let s := s.ioctl (.siocGifFlags ifrName)
      if o.gifFlags < 0 then (-1, s.release sockfd)
      else
        let s := s.ioctl (.siocSifFlags ifrName (change o.ifrFlags))
        if o.sifFlags < 0 then (-1, s.release sockfd)
        else (0, s.release sockfd)

/-- `tun_device_up`; that IPv6 stays enabled is no failure. -/
def tunDeviceUp (tun : TunDevice) (o : TunFlagsOutcomes) (ipv6 : DisableIpv6Outcomes) (s : Host) :
    Int × Host :=
  match tunDeviceSetFlags (fun flags => flags ||| (iffUp ||| iffRunning)) tun o s with
  | (ret, s) =>
      if ret < 0 then (-1, s)
      else (0, (tunDeviceDisableIpv6 tun.name ipv6 s).2)

def tunDeviceDown (tun : TunDevice) (o : TunFlagsOutcomes) (s : Host) : Int × Host :=
  tunDeviceSetFlags (fun flags => flags &&& ~~~iffUp) tun o s

/-! ## `new_tun_device` and `tun_device_destroy` -/

def tunDeviceDestroy (tun : TunDevice) (s : Host) : Host :=
  if tun.fd ≥ 0 then (s.release tun.file).release tun.self else s.release tun.self

structure TunOutcomes where
  create : TunCreateOutcomes
  configure : TunConfigureOutcomes
  up : TunFlagsOutcomes
  ipv6 : DisableIpv6Outcomes

def newTunDevice (ifname ip netmask : Option Text) (mtu : Int) (o : TunOutcomes) (s : Host) :
    Option TunDevice × Host :=
  match tunDeviceCreate ifname o.create s with
  | (none, s) => (none, s)
  | (some tun, s) =>
      match tunDeviceConfigure tun ip netmask mtu o.configure s with
      | (ret, tun, s) =>
          if ret < 0 then (none, tunDeviceDestroy tun s)
          else match tunDeviceUp tun o.up o.ipv6 s with
            | (ret, s) => if ret < 0 then (none, tunDeviceDestroy tun s) else (some tun, s)

end Dataplane.Model.Startup
