import Verlet.Contracts.Values

/-!
# Wasm — Addresses

The network addresses of the HTTP gate: their texts as the standard library reads them, and the tests
that call an address private or special.
-/

namespace Verlet.Wasm

/-- `Ipv4Addr`: its four octets. -/
structure Ipv4Addr where
  a : BitVec 8
  b : BitVec 8
  c : BitVec 8
  d : BitVec 8
deriving DecidableEq

/-- `Ipv6Addr`: its eight segments. -/
structure Ipv6Addr where
  s₀ : BitVec 16
  s₁ : BitVec 16
  s₂ : BitVec 16
  s₃ : BitVec 16
  s₄ : BitVec 16
  s₅ : BitVec 16
  s₆ : BitVec 16
  s₇ : BitVec 16
deriving DecidableEq

inductive IpAddr where
  | v4 (ip : Ipv4Addr)
  | v6 (ip : Ipv6Addr)
deriving DecidableEq

/-! ### The text of an address -/

/-- The digits of `n`. -/
def decimal (n : Nat) : List Char := Nat.toDigits 10 n

variable (ip : Ipv4Addr)

/-- `Display` of an IPv4 address. -/
def Ipv4Addr.text : List Char :=
  decimal ip.a.toNat ++ '.' :: (decimal ip.b.toNat ++ '.' :: (decimal ip.c.toNat ++ '.' ::
    decimal ip.d.toNat))

/-- `char::to_digit`. -/
def toDigit (radix : Nat) (c : Char) : Option Nat := (Uuid.hexValue c).filter (· < radix)

/-- `read_number`: as many digits as there are, which must not be more than `maxDigits`. -/
def readNumber (radix maxDigits : Nat) (allowZeroPrefix : Bool) (limit : Nat) (cs : List Char) :
    Option (Nat × List Char) :=
  let digits := cs.takeWhile fun c => (toDigit radix c).isSome
  if digits = [] ∨ maxDigits < digits.length ∨
      (allowZeroPrefix = false ∧ digits.head? = some '0' ∧ 1 < digits.length) then none
  else
    let value := digits.foldl (fun n c => radix * n + (toDigit radix c).getD 0) 0
    if value < limit then some (value, cs.drop digits.length) else none

def readGivenChar (expected : Char) : List Char → Option (List Char)
  | []      => none
  | c :: cs => if c = expected then some cs else none

/-- `read_separator`: before every part but the first stands the separator. -/
def readSeparator {α : Type} (separator : Char) (index : Nat)
    (inner : List Char → Option (α × List Char)) (cs : List Char) : Option (α × List Char) :=
  if index = 0 then inner cs else (readGivenChar separator cs).bind inner

def readOctet : List Char → Option (Nat × List Char) := readNumber 10 3 false 256

def readIpv4Addr (cs : List Char) : Option (Ipv4Addr × List Char) :=
  (readSeparator '.' 0 readOctet cs).bind fun a =>
  (readSeparator '.' 1 readOctet a.2).bind fun b =>
  (readSeparator '.' 2 readOctet b.2).bind fun c =>
  (readSeparator '.' 3 readOctet c.2).map fun d =>
  (⟨BitVec.ofNat 8 a.1, BitVec.ofNat 8 b.1, BitVec.ofNat 8 c.1, BitVec.ofNat 8 d.1⟩, d.2)

/-- `read_groups`: at most `left` groups, the last two of which may be written as an IPv4 address.  Says
whether they were. -/
def readGroups : Nat → Nat → List Char → (List (BitVec 16) × Bool) × List Char
  | 0,        _,     cs => (([], false), cs)
  | left + 1, index, cs =>
    match if 0 < left then readSeparator ':' index readIpv4Addr cs else none with
    | some (ip, rest) => (([ip.a ++ ip.b, ip.c ++ ip.d], true), rest)
    | none            =>
      match readSeparator ':' index (readNumber 16 4 true 65536) cs with
      | some (group, rest) =>
        let more := readGroups left (index + 1) rest
        ((BitVec.ofNat 16 group :: more.1.1, more.1.2), more.2)
      | none => (([], false), cs)

def ofGroups : List (BitVec 16) → Option Ipv6Addr
  | [s₀, s₁, s₂, s₃, s₄, s₅, s₆, s₇] => some ⟨s₀, s₁, s₂, s₃, s₄, s₅, s₆, s₇⟩
  | _                                => none

/-- `read_ipv6_addr`: eight groups, or up to seven with the zeros between them left out. -/
def readIpv6Addr (cs : List Char) : Option (Ipv6Addr × List Char) :=
  let head := readGroups 8 0 cs
  if head.1.1.length = 8 then (ofGroups head.1.1).map (·, head.2)
  else if head.1.2 then none
  else
    (readGivenChar ':' head.2).bind fun rest =>
    (readGivenChar ':' rest).bind fun rest =>
    let tail := readGroups (7 - head.1.1.length) 0 rest
    (ofGroups (head.1.1 ++ List.replicate (8 - head.1.1.length - tail.1.1.length) 0 ++
      tail.1.1)).map (·, tail.2)

/-- `parse::<IpAddr>`: the whole text is one address. -/
def parseIpAddr (cs : List Char) : Option IpAddr :=
  let read : Option (IpAddr × List Char) :=
    match readIpv4Addr cs with
    | some (ip, rest) => some (IpAddr.v4 ip, rest)
    | none            => (readIpv6Addr cs).map fun found => (IpAddr.v6 found.1, found.2)
  read.bind fun found => if found.2 = [] then some found.1 else none

example : parseIpAddr "::ffff:127.0.0.1".toList =
    some (.v6 ⟨0, 0, 0, 0, 0, 0xffff, 0x7f00, 1⟩) := by decide

theorem forall_lt_mul {P : Nat → Prop} {a b : Nat} (h : ∀ high < a, ∀ low < b, P (b * high + low)) :
    ∀ n < a * b, P n := by
  intro n hn
  have hb : 0 < b := Nat.pos_of_ne_zero fun hb => by simp [hb] at hn
  have hdigits := h (n / b) (Nat.div_lt_of_lt_mul (by rwa [Nat.mul_comm] at hn)) (n % b) (Nat.mod_lt n hb)
  rwa [Nat.div_add_mod] at hdigits

theorem toDigit_digitChar : ∀ d < 10, toDigit 10 (Nat.digitChar d) = some d := by decide

theorem decimal_induction {P : Nat → Prop} (hdigit : ∀ d < 10, P d)
    (hmore : ∀ n, 10 ≤ n → decimal n = decimal (n / 10) ++ [Nat.digitChar (n % 10)] → P (n / 10) → P n)
    (n : Nat) : P n := by
  induction n using Nat.strongRecOn with
  | ind n ih =>
    by_cases hn : n < 10
    · exact hdigit n hn
    · have hn : 10 ≤ n := Nat.le_of_not_lt hn
      exact hmore n hn (Nat.toDigits_of_base_le (by decide) hn) (ih (n / 10) (by omega))

theorem decimal_digit {d : Nat} (h : d < 10) : decimal d = [Nat.digitChar d] := Nat.toDigits_of_lt_base h

theorem decimal_isDigit (n : Nat) : ∀ c ∈ decimal n, (toDigit 10 c).isSome := by
  induction n using decimal_induction with
  | hdigit d hd => simp [decimal_digit hd, toDigit_digitChar d hd]
  | hmore n hn hdecimal ih =>
    have hd : n % 10 < 10 := Nat.mod_lt n (by decide)
    intro c hc
    rw [hdecimal] at hc
    rcases List.mem_append.mp hc with hc | hc
    · exact ih c hc
    · rw [List.mem_singleton.mp hc, toDigit_digitChar _ hd]
      rfl

theorem decimal_value (n : Nat) :
    (decimal n).foldl (fun n c => 10 * n + (toDigit 10 c).getD 0) 0 = n := by
  induction n using decimal_induction with
  | hdigit d hd => simp [decimal_digit hd, toDigit_digitChar d hd]
  | hmore n hn hdecimal ih =>
    have hd : n % 10 < 10 := Nat.mod_lt n (by decide)
    rw [hdecimal, List.foldl_append, ih]
    simp only [List.foldl_cons, List.foldl_nil, toDigit_digitChar _ hd, Option.getD_some]
    omega

theorem decimal_ne_nil (n : Nat) : decimal n ≠ [] := by
  induction n using decimal_induction with
  | hdigit d hd => simp [decimal_digit hd]
  | hmore n hn hdecimal ih => simp [hdecimal]

variable {n : Nat}

theorem decimal_head (h : (decimal n).head? = some '0') : n = 0 := by
  have hzero : ∀ d < 10, Nat.digitChar d = '0' → d = 0 := by decide
  induction n using decimal_induction with
  | hdigit d hd => exact hzero d hd (by simpa [decimal_digit hd] using h)
  | hmore n hn hdecimal ih =>
    rw [hdecimal, List.head?_append_of_ne_nil _ (decimal_ne_nil _)] at h
    have hquotient := ih h
    omega

theorem decimal_length {k : Nat} (h : n < 10 ^ (k + 1)) : (decimal n).length ≤ k + 1 := by
  induction k generalizing n with
  | zero => simp [decimal_digit h]
  | succ k ih =>
    by_cases hn : n < 10
    · simp [decimal_digit hn]
    · have hquotient : (decimal (n / 10)).length ≤ k + 1 :=
        ih (Nat.div_lt_of_lt_mul (by rwa [← Nat.pow_succ']))
      rw [show decimal n = decimal (n / 10) ++ [Nat.digitChar (n % 10)] from
        Nat.toDigits_of_base_le (by decide) (Nat.le_of_not_lt hn)]
      simpa using hquotient

theorem decimal_octet (hn : n < 256) :
    (∀ c ∈ decimal n, (toDigit 10 c).isSome) ∧ decimal n ≠ [] ∧ (decimal n).length ≤ 3 ∧
    ((decimal n).head? = some '0' → (decimal n).length ≤ 1) ∧
    (decimal n).foldl (fun n c => 10 * n + (toDigit 10 c).getD 0) 0 = n := by
  refine ⟨decimal_isDigit n, decimal_ne_nil n, decimal_length (by omega), fun hhead => ?_, decimal_value n⟩
  obtain rfl := decimal_head hhead
  exact Nat.le_refl 1

theorem readOctet_decimal (x : BitVec 8) {rest : List Char}
    (hrest : ∀ c ∈ rest.head?, (toDigit 10 c).isSome = false) :
    readOctet (decimal x.toNat ++ rest) = some (x.toNat, rest) := by
  obtain ⟨hdigits, hne, hshort, hzero, hvalue⟩ := decimal_octet x.isLt
  have htake : (decimal x.toNat ++ rest).takeWhile (fun c => (toDigit 10 c).isSome) =
      decimal x.toNat := by
    rw [List.takeWhile_append_of_pos hdigits]
    cases rest with
    | nil => simp
    | cons c rest => rw [List.takeWhile_cons_of_neg (by simp [hrest c rfl]), List.append_nil]
  have hfits : ¬ (decimal x.toNat = [] ∨ 3 < (decimal x.toNat).length ∨
      (false = false ∧ (decimal x.toNat).head? = some '0' ∧ 1 < (decimal x.toNat).length)) := by
    rintro (h | h | ⟨-, h, hlong⟩)
    · exact hne h
    · omega
    · have := hzero h
      omega
  rw [readOctet, readNumber]
  dsimp only
  rw [htake, if_neg hfits, hvalue, if_pos x.isLt, List.drop_left]

theorem dot_no_digit (rest : List Char) :
    ∀ c ∈ ('.' :: rest).head?, (toDigit 10 c).isSome = false := by
  rintro c hc
  cases hc
  rfl

/-- **The text of an IPv4 address is read as that address.** -/
theorem parseIpAddr_text : parseIpAddr ip.text = some (.v4 ip) := by
  have hd : readOctet (decimal ip.d.toNat) = some (ip.d.toNat, []) := by
    simpa using @readOctet_decimal ip.d [] (by simp)
  have hread : readIpv4Addr ip.text = some (ip, []) := by
    simp [readIpv4Addr, Ipv4Addr.text, readSeparator, readGivenChar,
      readOctet_decimal _ (dot_no_digit _), hd]
  simp [parseIpAddr, hread]

theorem parseIpAddr_bracket (cs : List Char) : parseIpAddr ('[' :: cs) = none := by
  have hnumber (radix maxDigits : Nat) (zeros : Bool) (limit : Nat) :
      readNumber radix maxDigits zeros limit ('[' :: cs) = none := by
    have hdigit : toDigit radix '[' = none := rfl
    simp [readNumber, hdigit]
  have hv4 : readIpv4Addr ('[' :: cs) = none := by
    simp [readIpv4Addr, readSeparator, readOctet, hnumber]
  have hgroups : readGroups 8 0 ('[' :: cs) = (([], false), '[' :: cs) := by
    simp [readGroups, readSeparator, hv4, hnumber]
  simp [parseIpAddr, hv4, readIpv6Addr, hgroups, readGivenChar]

/-! ### Private and special addresses -/

namespace Ipv4Addr

def isPrivate : Bool :=
  ip.a = 10 || (ip.a = 172 && (16 ≤ ip.b && ip.b ≤ 31)) || (ip.a = 192 && ip.b = 168)

def isLoopback : Bool := ip.a = 127

def isLinkLocal : Bool := ip.a = 169 && ip.b = 254

def isBroadcast : Bool := ip = ⟨255, 255, 255, 255⟩

def isDocumentation : Bool :=
  (ip.a = 192 && ip.b = 0 && ip.c = 2) || (ip.a = 198 && ip.b = 51 && ip.c = 100) ||
    (ip.a = 203 && ip.b = 0 && ip.c = 113)

def isUnspecified : Bool := ip = ⟨0, 0, 0, 0⟩

/-- The address as one number. -/
def toNat : Nat :=
  ((ip.a.toNat * 256 + ip.b.toNat) * 256 + ip.c.toNat) * 256 + ip.d.toNat

end Ipv4Addr

namespace Ipv6Addr

def isLoopback (ip : Ipv6Addr) : Bool := ip = ⟨0, 0, 0, 0, 0, 0, 0, 1⟩

def isUnspecified (ip : Ipv6Addr) : Bool := ip = ⟨0, 0, 0, 0, 0, 0, 0, 0⟩

/-- The address as one number. -/
def toNat (ip : Ipv6Addr) : Nat :=
  [ip.s₀, ip.s₁, ip.s₂, ip.s₃, ip.s₄, ip.s₅, ip.s₆, ip.s₇].foldl (fun n s => n * 65536 + s.toNat) 0

/-- The IPv6 address that stands for an IPv4 address, `::ffff:a.b.c.d`. -/
def mapped : Ipv6Addr :=
  ⟨0, 0, 0, 0, 0, 0xffff, ip.a ++ ip.b, ip.c ++ ip.d⟩

end Ipv6Addr

def isPrivateOrSpecialIpv4 : Bool :=
  ip.isPrivate || ip.isLoopback || ip.isLinkLocal || ip.isBroadcast || ip.isDocumentation ||
    ip.isUnspecified || ip.a = 0 || 224 ≤ ip.a || (ip.a = 100 && ip.b &&& 0b11000000 = 0b01000000) ||
    (ip.a = 198 && ip.b &&& 0b11111110 = 18)

def isPrivateOrSpecialIpv6 (ip : Ipv6Addr) : Bool :=
  ip.isLoopback || ip.isUnspecified || ip.s₀ &&& 0xfe00 = 0xfc00 ||
    ip.s₀ &&& 0xffc0 = 0xfe80 || (ip.s₀ = 0x2001 && ip.s₁ = 0x0db8) ||
    ip.s₀ = 0x5f00

def isPrivateOrSpecialIp : IpAddr → Bool
  | .v4 ip => isPrivateOrSpecialIpv4 ip
  | .v6 ip => isPrivateOrSpecialIpv6 ip

/-! ### Which addresses are private

The blocks that are meant, by the numbers of their addresses. -/

/-- The first `bits` of `size` bits are those of `net`. -/
def InBlock (size bits net address : Nat) : Prop :=
  address / 2 ^ (size - bits) = net / 2 ^ (size - bits)

instance (size bits net address : Nat) : Decidable (InBlock size bits net address) :=
  inferInstanceAs (Decidable (_ = _))

/-- Loopback, unspecified, private, link-local or of a carrier-grade NAT. -/
def Ipv4Addr.Private : Prop :=
  ∃ block ∈ [((8 : Nat), (⟨127, 0, 0, 0⟩ : Ipv4Addr)), (32, ⟨0, 0, 0, 0⟩), (8, ⟨10, 0, 0, 0⟩),
    (12, ⟨172, 16, 0, 0⟩), (16, ⟨192, 168, 0, 0⟩), (16, ⟨169, 254, 0, 0⟩), (10, ⟨100, 64, 0, 0⟩)],
    InBlock 32 block.1 block.2.toNat ip.toNat

/-- Loopback, unspecified, unique-local or link-local. -/
def Ipv6Addr.Private (ip : Ipv6Addr) : Prop :=
  ∃ block ∈ [((128 : Nat), (⟨0, 0, 0, 0, 0, 0, 0, 1⟩ : Ipv6Addr)),
    (128, ⟨0, 0, 0, 0, 0, 0, 0, 0⟩), (7, ⟨0xfc00, 0, 0, 0, 0, 0, 0, 0⟩),
    (10, ⟨0xfe80, 0, 0, 0, 0, 0, 0, 0⟩)],
    InBlock 128 block.1 block.2.toNat ip.toNat

instance (ip : Ipv6Addr) : Decidable ip.Private := inferInstanceAs (Decidable (∃ _ ∈ _, _))

/-- A private address, written as IPv4, as IPv6, or as the IPv6 address that stands for an IPv4
address. -/
def IpAddr.Private : IpAddr → Prop
  | .v4 ip => ip.Private
  | .v6 ip => ip.Private ∨ ∃ v4, ip = .mapped v4 ∧ v4.Private

theorem carrier_grade (x : BitVec 8) (hx : x.toNat / 64 = 1) : x &&& 0b11000000 = 0b01000000 := by
  have hoctets : ∀ n < 256, n / 64 = 1 → BitVec.ofNat 8 n &&& 0b11000000 = 0b01000000 :=
    forall_lt_mul (a := 16) (b := 16) (by decide)
  have hgrade := hoctets x.toNat x.isLt hx
  rwa [BitVec.ofNat_toNat, BitVec.setWidth_eq] at hgrade

theorem octet_eq {x : BitVec 8} (h : x.toNat = n) : x = BitVec.ofNat 8 n := by
  simp [← h]

/-- **The test for IPv4 calls every private address special.** -/
theorem special_of_private {ip : Ipv4Addr} (h : ip.Private) : isPrivateOrSpecialIpv4 ip = true := by
  obtain ⟨a, b, c, d⟩ := ip
  -- the two octets that matter, as one number
  have hhalf : (Ipv4Addr.toNat ⟨a, b, c, d⟩) / 2 ^ 16 = a.toNat * 256 + b.toNat := by
    have hc := c.isLt
    have hd := d.isLt
    simp only [Ipv4Addr.toNat]
    omega
  have hblock {bits net size n : Nat} (hbits : bits ≤ 16) (hsize : 2 ^ (16 - bits) = size)
      (hnet : net / 2 ^ (32 - bits) = n) (hin : InBlock 32 bits net (Ipv4Addr.toNat ⟨a, b, c, d⟩)) :
      (a.toNat * 256 + b.toNat) / size = n := by
    rw [← hhalf, ← hnet, ← hsize, Nat.div_div_eq_div_mul, ← Nat.pow_add, ← hin]
    congr 2
    omega
  simp only [Ipv4Addr.Private, List.mem_cons, List.not_mem_nil, or_false, exists_eq_or_imp,
    exists_eq_left] at h
  rcases h with h | h | h | h | h | h | h
  · have h : (a.toNat * 256 + b.toNat) / 256 = 127 := hblock (by decide) rfl rfl h
    have ha : a = 127#8 := octet_eq (by omega)
    rw [ha]
    rfl
  · have ha : a = 0#8 := octet_eq (by
      have : Ipv4Addr.toNat ⟨a, b, c, d⟩ = 0 := by simpa [InBlock, Ipv4Addr.toNat] using h
      simp only [Ipv4Addr.toNat] at this
      omega)
    simp [isPrivateOrSpecialIpv4, ha]
  · have h : (a.toNat * 256 + b.toNat) / 256 = 10 := hblock (by decide) rfl rfl h
    have ha : a = 10#8 := octet_eq (by omega)
    rw [ha]
    rfl
  · have h : (a.toNat * 256 + b.toNat) / 16 = 172 * 16 + 1 := hblock (by decide) rfl rfl h
    have ha : a = 172#8 := octet_eq (by omega)
    have hrange : 16#8 ≤ b ∧ b ≤ 31#8 := by
      simp only [BitVec.le_def, BitVec.reduceToNat]
      omega
    simp [isPrivateOrSpecialIpv4, Ipv4Addr.isPrivate, ha, hrange]
  · have h : (a.toNat * 256 + b.toNat) / 1 = 192 * 256 + 168 := hblock (by decide) rfl rfl h
    have ha : a = 192#8 := octet_eq (by omega)
    have hb : b = 168#8 := octet_eq (by omega)
    rw [ha, hb]
    rfl
  · have h : (a.toNat * 256 + b.toNat) / 1 = 169 * 256 + 254 := hblock (by decide) rfl rfl h
    have ha : a = 169#8 := octet_eq (by omega)
    have hb : b = 254#8 := octet_eq (by omega)
    rw [ha, hb]
    rfl
  · have h : (a.toNat * 256 + b.toNat) / 64 = 100 * 4 + 1 := hblock (by decide) rfl rfl h
    have ha : a = 100#8 := octet_eq (by omega)
    have hrange : b &&& 192#8 = 64#8 := carrier_grade b (by omega)
    simp [isPrivateOrSpecialIpv4, ha, hrange]

theorem unique_local : ∀ n < 512, BitVec.ofNat 16 (0xfc00 + n) &&& 0xfe00#16 = 0xfc00#16 :=
  forall_lt_mul (a := 32) (b := 16) (by decide)

theorem link_local : ∀ n < 64, BitVec.ofNat 16 (0xfe80 + n) &&& 0xffc0#16 = 0xfe80#16 := by
  decide

theorem segment_eq {x : BitVec 16} (h : x.toNat = n) : x = BitVec.ofNat 16 n := by
  simp [← h]

theorem Ipv6Addr.toNat_eq (ip : Ipv6Addr) :
    ∃ low < 2 ^ 112, ip.toNat = ip.s₀.toNat * 2 ^ 112 + low := by
  have h₁ := ip.s₁.isLt
  have h₂ := ip.s₂.isLt
  have h₃ := ip.s₃.isLt
  have h₄ := ip.s₄.isLt
  have h₅ := ip.s₅.isLt
  have h₆ := ip.s₆.isLt
  have h₇ := ip.s₇.isLt
  refine ⟨ip.s₁.toNat * 2 ^ 96 + ip.s₂.toNat * 2 ^ 80 + ip.s₃.toNat * 2 ^ 64 +
    ip.s₄.toNat * 2 ^ 48 + ip.s₅.toNat * 2 ^ 32 + ip.s₆.toNat * 2 ^ 16 + ip.s₇.toNat, by omega, ?_⟩
  simp only [Ipv6Addr.toNat, List.foldl_cons, List.foldl_nil]
  ring

theorem Ipv6Addr.toNat_inj {ip ip' : Ipv6Addr} (h : ip.toNat = ip'.toNat) : ip = ip' := by
  obtain ⟨s₀, s₁, s₂, s₃, s₄, s₅, s₆, s₇⟩ := ip
  obtain ⟨t₀, t₁, t₂, t₃, t₄, t₅, t₆, t₇⟩ := ip'
  have digit {a b x y : Nat} (hx : x < 65536) (hy : y < 65536) (h : a * 65536 + x = b * 65536 + y) :
      a = b ∧ x = y := by omega
  simp only [Ipv6Addr.toNat, List.foldl_cons, List.foldl_nil] at h
  obtain ⟨h, h₇⟩ := digit s₇.isLt t₇.isLt h
  obtain ⟨h, h₆⟩ := digit s₆.isLt t₆.isLt h
  obtain ⟨h, h₅⟩ := digit s₅.isLt t₅.isLt h
  obtain ⟨h, h₄⟩ := digit s₄.isLt t₄.isLt h
  obtain ⟨h, h₃⟩ := digit s₃.isLt t₃.isLt h
  obtain ⟨h, h₂⟩ := digit s₂.isLt t₂.isLt h
  obtain ⟨h, h₁⟩ := digit s₁.isLt t₁.isLt h
  obtain ⟨-, h₀⟩ := digit s₀.isLt t₀.isLt h
  simp only [Ipv6Addr.mk.injEq]
  exact ⟨BitVec.eq_of_toNat_eq h₀, BitVec.eq_of_toNat_eq h₁, BitVec.eq_of_toNat_eq h₂,
    BitVec.eq_of_toNat_eq h₃, BitVec.eq_of_toNat_eq h₄, BitVec.eq_of_toNat_eq h₅,
    BitVec.eq_of_toNat_eq h₆, BitVec.eq_of_toNat_eq h₇⟩

/-- **The test for IPv6 calls every private address special** that stands for no IPv4 address. -/
theorem special_of_private_v6 {ip : Ipv6Addr} (h : ip.Private) : isPrivateOrSpecialIpv6 ip = true := by
  obtain ⟨low, hlow, htoNat⟩ := ip.toNat_eq
  simp only [Ipv6Addr.Private, InBlock, List.mem_cons, List.not_mem_nil, or_false, exists_eq_or_imp,
    exists_eq_left, Nat.sub_self, Nat.pow_zero, Nat.div_one] at h
  rcases h with h | h | h | h
  · have heq : ip = ⟨0, 0, 0, 0, 0, 0, 0, 1⟩ := Ipv6Addr.toNat_inj h
    rw [heq]
    rfl
  · have heq : ip = ⟨0, 0, 0, 0, 0, 0, 0, 0⟩ := Ipv6Addr.toNat_inj h
    rw [heq]
    rfl
  · rw [htoNat] at h
    obtain ⟨n, hn, hs₀⟩ : ∃ n < 512, ip.s₀.toNat = 0xfc00 + n :=
      ⟨ip.s₀.toNat - 0xfc00, by simp [Ipv6Addr.toNat] at h; omega,
        by simp [Ipv6Addr.toNat] at h; omega⟩
    simp [isPrivateOrSpecialIpv6, segment_eq hs₀, unique_local n hn]
  · rw [htoNat] at h
    obtain ⟨n, hn, hs₀⟩ : ∃ n < 64, ip.s₀.toNat = 0xfe80 + n :=
      ⟨ip.s₀.toNat - 0xfe80, by simp [Ipv6Addr.toNat] at h; omega,
        by simp [Ipv6Addr.toNat] at h; omega⟩
    simp [isPrivateOrSpecialIpv6, segment_eq hs₀, link_local n hn]

theorem mapped_not_special : isPrivateOrSpecialIpv6 (.mapped ip) = false := by
  simp [isPrivateOrSpecialIpv6, Ipv6Addr.isLoopback, Ipv6Addr.isUnspecified, Ipv6Addr.mapped]

end Verlet.Wasm
