import InteractiveProxy.GoText

/-! The addresses and prefixes of `net/netip`. -/
namespace InteractiveProxy.NetAddress

open GoText

/-- `netip.Addr`; `invalid` is its zero value. -/
inductive Addr
  | invalid
  | v4 (bits : BitVec 32)
  | v6 (bits : BitVec 128) (zone : GoStr)
  deriving DecidableEq

namespace Addr

def isValid : Addr → Bool
  | invalid => false
  | _ => true

def is4 : Addr → Bool
  | v4 _ => true
  | _ => false

def is4In6 : Addr → Bool
  | v6 bits _ => bits >>> 32 == 0xFFFF#128
  | _ => false

def unmap : Addr → Addr
  | v6 bits zone => if (v6 bits zone).is4In6 then v4 (bits.setWidth 32) else v6 bits zone
  | addr => addr

def bitLen : Addr → ℕ
  | invalid => 0
  | v4 _ => 32
  | v6 _ _ => 128

def withoutZone : Addr → Addr
  | v6 bits _ => v6 bits []
  | addr => addr

def wide : Addr → BitVec 128
  | invalid => 0
  | v4 bits => (0xFFFF#128 <<< 32) ||| bits.setWidth 128
  | v6 bits _ => bits

def as16 (addr : Addr) : List UInt8 :=
  (List.range 16).map fun i => UInt8.ofNat (addr.wide >>> (8 * (15 - i))).toNat

end Addr

/-- `netip.Prefix`; it is invalid without a length. -/
structure Prefix where
  ip : Addr
  bits : Option ℕ
  deriving DecidableEq

def Prefix.isValid (p : Prefix) : Bool := p.bits.isSome

/-- `Prefix.Bits`. -/
def Prefix.length (p : Prefix) : ℤ := p.bits.elim (-1) fun b => b

def prefixFrom (ip : Addr) (bits : ℤ) : Prefix :=
  ⟨ip.withoutZone, if ip.isValid = true ∧ 0 ≤ bits ∧ bits ≤ ip.bitLen then some bits.toNat else none⟩

/-- The first `b` bits of a word. -/
def leading {n : ℕ} (x : BitVec n) (b : ℕ) : BitVec n := x &&& (BitVec.allOnes n <<< (n - b))

def Prefix.masked (p : Prefix) : Prefix :=
  match p.bits, p.ip with
  | some b, .v4 x => if b ≤ 32 then prefixFrom (.v4 (leading x b)) b else ⟨.invalid, none⟩
  | some b, .v6 x zone => if b ≤ 128 then prefixFrom (.v6 (leading x b) zone) b
    else ⟨.invalid, none⟩
  | _, _ => ⟨.invalid, none⟩

end InteractiveProxy.NetAddress
