import Mathlib.Tactic.GCongr
import Mathlib.Data.List.Basic
import Mathlib.Data.Char
import Mathlib.Tactic.Ring

/-!
# Support — UTF-8, decoded lossily

Bytes as text and back.  `encode` writes characters as UTF-8; `lossy` reads any bytes, one byte
after the other, and puts the replacement character for every maximal part that no character
begins with.

* `lossy_encode`: what was encoded reads back.
* `mends_fromUtf8`: the strict reading stops where the lossy one first puts a replacement.
-/

namespace Verlet.Support.Utf8

/-- Where the reader stands between two bytes. -/
inductive State where
  /-- A character begins here. -/
  | start
  /-- Within a character: the range of its next byte, how many more it has after that, and the
  bits read so far. -/
  | inside (low high owed bits : Nat) (hlow : 0x80 ≤ low) (hhigh : high ≤ 0xBF)

def replacement : Char := Char.ofNat 0xFFFD

/-- What the first byte of a character gives, and the state after it. -/
def first (b : Nat) : List Char × State :=
  if b < 0x80 then ([Char.ofNat b], .start)
  else if 0xC2 ≤ b ∧ b ≤ 0xDF then ([], .inside 0x80 0xBF 0 (b - 0xC0) (by decide) (by decide))
  else if b = 0xE0 then ([], .inside 0xA0 0xBF 1 0 (by decide) (by decide))
  else if b = 0xED then ([], .inside 0x80 0x9F 1 0xD (by decide) (by decide))
  else if 0xE1 ≤ b ∧ b ≤ 0xEF then ([], .inside 0x80 0xBF 1 (b - 0xE0) (by decide) (by decide))
  else if b = 0xF0 then ([], .inside 0x90 0xBF 2 0 (by decide) (by decide))
  else if 0xF1 ≤ b ∧ b ≤ 0xF3 then ([], .inside 0x80 0xBF 2 (b - 0xF0) (by decide) (by decide))
  else if b = 0xF4 then ([], .inside 0x80 0x8F 2 4 (by decide) (by decide))
  else ([replacement], .start)

/-- One byte: the characters it completes, and the state after it. -/
def next : State → Nat → List Char × State
  | .start, b => first b
  | .inside low high owed bits _ _, b =>
    if low ≤ b ∧ b ≤ high then
      match owed with
      | 0     => ([Char.ofNat (bits * 64 + b % 64)], .start)
      | n + 1 => ([], .inside 0x80 0xBF n (bits * 64 + b % 64) (by decide) (by decide))
    else
      -- the part read so far begins no character, and `b` is read anew
      (replacement :: (first b).1, (first b).2)

/-- What the end of the bytes leaves: an unfinished character is replaced. -/
def State.close : State → List Char
  | .start => []
  | .inside .. => [replacement]

def readFrom : State → List UInt8 → List Char
  | q, []      => q.close
  | q, b :: bs => (next q b.toNat).1 ++ readFrom (next q b.toNat).2 bs

def lossy (bytes : List UInt8) : List Char := readFrom .start bytes

def encode (text : List Char) : List UInt8 := text.flatMap String.utf8EncodeChar

@[simp] theorem lossy_nil : lossy [] = [] := rfl

@[simp] theorem encode_nil : encode [] = [] := rfl

@[simp] theorem encode_append (s t : List Char) : encode (s ++ t) = encode s ++ encode t :=
  List.flatMap_append

/-! ### What was encoded reads back -/

variable {low high owed bits : Nat} {hlow : 0x80 ≤ low} {hhigh : high ≤ 0xBF} {b : UInt8}
  {bs : List UInt8}

theorem toNat_byte {n : Nat} (h : n < 256) : (UInt8.ofNat n).toNat = n := by
  rw [UInt8.toNat_ofNat']
  exact Nat.mod_eq_of_lt h

/-- A byte within a character, with the last six bits of a number. -/
theorem toNat_within (n : Nat) : (UInt8.ofNat (n % 64 + 0x80)).toNat = n % 64 + 0x80 :=
  toNat_byte (by omega)

variable {n v : Nat}

theorem readFrom_last (h : low ≤ n % 64 + 0x80 ∧ n % 64 + 0x80 ≤ high) :
    readFrom (.inside low high 0 bits hlow hhigh) (UInt8.ofNat (n % 64 + 0x80) :: bs)
      = Char.ofNat (bits * 64 + n % 64) :: readFrom .start bs := by
  have hbits : (n % 64 + 0x80) % 64 = n % 64 := by omega
  simp only [readFrom, next, toNat_within, if_pos h, hbits, List.cons_append, List.nil_append]

theorem readFrom_more (h : low ≤ n % 64 + 0x80 ∧ n % 64 + 0x80 ≤ high) :
    readFrom (.inside low high (owed + 1) bits hlow hhigh) (UInt8.ofNat (n % 64 + 0x80) :: bs)
      = readFrom (.inside 0x80 0xBF owed (bits * 64 + n % 64) (by decide) (by decide)) bs := by
  have hbits : (n % 64 + 0x80) % 64 = n % 64 := by omega
  simp only [readFrom, next, toNat_within, if_pos h, hbits, List.nil_append]

theorem readFrom_first {q : State} (h : first b.toNat = ([], q)) :
    readFrom .start (b :: bs) = readFrom q bs := by
  simp only [readFrom, next, h, List.nil_append]

theorem read_two (h₁ : 0x7F < v) (h₂ : v ≤ 0x7FF) :
    readFrom .start (UInt8.ofNat (v / 64 % 32 + 0xC0) :: UInt8.ofNat (v % 64 + 0x80) :: bs)
      = Char.ofNat v :: readFrom .start bs := by
  have hfirst : first (UInt8.ofNat (v / 64 % 32 + 0xC0)).toNat
      = ([], .inside 0x80 0xBF 0 (v / 64) (by decide) (by decide)) := by
    have hbits : v / 64 % 32 + 0xC0 - 0xC0 = v / 64 := by omega
    rw [toNat_byte (by omega), first, if_neg (by omega), if_pos (by omega)]
    simp only [hbits]
  have hv : v / 64 * 64 + v % 64 = v := by omega
  rw [readFrom_first hfirst, readFrom_last (by omega), hv]

theorem read_three (h₁ : 0x7FF < v) (h₂ : v ≤ 0xFFFF) (h₃ : v < 0xD800 ∨ 0xDFFF < v) :
    readFrom .start (UInt8.ofNat (v / 4096 % 16 + 0xE0) :: UInt8.ofNat (v / 64 % 64 + 0x80) ::
        UInt8.ofNat (v % 64 + 0x80) :: bs)
      = Char.ofNat v :: readFrom .start bs := by
  -- the range of the second byte keeps out overlong forms and surrogates
  obtain ⟨low, high, hlow, hhigh, hfirst, hrange⟩ : ∃ low high hlow hhigh,
      first (UInt8.ofNat (v / 4096 % 16 + 0xE0)).toNat
        = ([], .inside low high 1 (v / 4096) hlow hhigh) ∧
      low ≤ v / 64 % 64 + 0x80 ∧ v / 64 % 64 + 0x80 ≤ high := by
    rw [toNat_byte (by omega), first, if_neg (by omega), if_neg (by omega)]
    by_cases h0 : v / 4096 = 0
    · refine ⟨0xA0, 0xBF, by decide, by decide, ?_, by omega, by omega⟩
      rw [if_pos (by omega), h0]
    · rw [if_neg (by omega)]
      by_cases hd : v / 4096 = 0xD
      · refine ⟨0x80, 0x9F, by decide, by decide, ?_, by omega, by omega⟩
        rw [if_pos (by omega), hd]
      · refine ⟨0x80, 0xBF, by decide, by decide, ?_, by omega, by omega⟩
        have hbits : v / 4096 % 16 + 0xE0 - 0xE0 = v / 4096 := by omega
        rw [if_neg (by omega), if_pos (by omega)]
        simp only [hbits]
  have hv : (v / 4096 * 64 + v / 64 % 64) * 64 + v % 64 = v := by omega
  rw [readFrom_first hfirst, readFrom_more hrange, readFrom_last (by omega), hv]

theorem read_four (h₁ : 0xFFFF < v) (h₂ : v < 0x110000) :
    readFrom .start (UInt8.ofNat (v / 262144 % 8 + 0xF0) :: UInt8.ofNat (v / 4096 % 64 + 0x80) ::
        UInt8.ofNat (v / 64 % 64 + 0x80) :: UInt8.ofNat (v % 64 + 0x80) :: bs)
      = Char.ofNat v :: readFrom .start bs := by
  -- the range of the second byte keeps out overlong forms and what is above the last character
  obtain ⟨low, high, hlow, hhigh, hfirst, hrange⟩ : ∃ low high hlow hhigh,
      first (UInt8.ofNat (v / 262144 % 8 + 0xF0)).toNat
        = ([], .inside low high 2 (v / 262144) hlow hhigh) ∧
      low ≤ v / 4096 % 64 + 0x80 ∧ v / 4096 % 64 + 0x80 ≤ high := by
    rw [toNat_byte (by omega), first, if_neg (by omega), if_neg (by omega), if_neg (by omega),
      if_neg (by omega), if_neg (by omega)]
    by_cases h0 : v / 262144 = 0
    · refine ⟨0x90, 0xBF, by decide, by decide, ?_, by omega, by omega⟩
      rw [if_pos (by omega), h0]
    · rw [if_neg (by omega)]
      by_cases h4 : v / 262144 = 4
      · refine ⟨0x80, 0x8F, by decide, by decide, ?_, by omega, by omega⟩
        rw [if_neg (by omega), if_pos (by omega), h4]
      · refine ⟨0x80, 0xBF, by decide, by decide, ?_, by omega, by omega⟩
        have hbits : v / 262144 % 8 + 0xF0 - 0xF0 = v / 262144 := by omega
        rw [if_pos (by omega)]
        simp only [hbits]
  have hv : ((v / 262144 * 64 + v / 4096 % 64) * 64 + v / 64 % 64) * 64 + v % 64 = v := by omega
  rw [readFrom_first hfirst, readFrom_more hrange, readFrom_more (by omega),
    readFrom_last (by omega), hv]

theorem readFrom_encodeChar (c : Char) :
    readFrom .start (String.utf8EncodeChar c ++ bs) = c :: readFrom .start bs := by
  have hc : c.val.toNat < 0xD800 ∨ 0xDFFF < c.val.toNat ∧ c.val.toNat < 0x110000 := c.valid
  have hback : Char.ofNat c.val.toNat = c := Char.ofNat_toNat c
  suffices hv : readFrom .start (String.utf8EncodeChar c ++ bs)
      = Char.ofNat c.val.toNat :: readFrom .start bs by rw [hv, hback]
  unfold String.utf8EncodeChar
  generalize c.val.toNat = v at hc
  dsimp only
  split
  · rename_i h₁
    have hb := @toNat_byte v (by omega)
    simp only [List.cons_append, List.nil_append, readFrom, next, hb, first]
    rw [if_pos (by omega)]
    rfl
  · split
    · exact read_two (by omega) (by omega)
    · split
      · exact read_three (by omega) (by omega) (by omega)
      · exact read_four (by omega) (by omega)

/-- **What was encoded reads back**, whatever follows it. -/
theorem lossy_encode_append (text : List Char) (bytes : List UInt8) :
    lossy (encode text ++ bytes) = text ++ lossy bytes := by
  induction text with
  | nil => rfl
  | cons c cs ih =>
    simp only [encode, List.flatMap_cons, List.append_assoc, List.cons_append] at ih ⊢
    rw [lossy, readFrom_encodeChar]
    exact congrArg (c :: ·) ih

theorem lossy_encode (text : List Char) : lossy (encode text) = text := by
  simpa using lossy_encode_append text []

/-! ### Where a reading splits -/

/-- No character goes on over the start of the bytes. -/
def Boundary (bytes : List UInt8) : Prop := ∀ b ∈ bytes.head?, b.toNat < 0x80 ∨ 0xBF < b.toNat

theorem readFrom_boundary {bytes : List UInt8} (h : Boundary bytes) (q : State) :
    readFrom q bytes = q.close ++ readFrom .start bytes := by
  cases q with
  | start => rfl
  | inside low high owed bits hlow hhigh =>
    cases bytes with
    | nil => rfl
    | cons b bs =>
      have hb := h b rfl
      simp only [readFrom, next]
      rw [if_neg (by omega)]
      rfl

theorem readFrom_append {y : List UInt8} (h : Boundary y) (x : List UInt8) (q : State) :
    readFrom q (x ++ y) = readFrom q x ++ lossy y := by
  induction x generalizing q with
  | nil => exact readFrom_boundary h q
  | cons b x ih => simp only [List.cons_append, readFrom, ih, List.append_assoc]

/-- **Bytes at which a character must begin are read on their own.** -/
theorem lossy_append {y : List UInt8} (h : Boundary y) (x : List UInt8) :
    lossy (x ++ y) = lossy x ++ lossy y := readFrom_append h x .start

theorem boundary_encode (text : List Char) : Boundary (encode text) := by
  intro b hb
  cases text with
  | nil => simp at hb
  | cons c cs =>
    simp only [encode, List.flatMap_cons, String.utf8EncodeChar] at hb
    generalize c.val.toNat = v at hb
    have hb' : b = UInt8.ofNat v ∧ v ≤ 0x7F ∨ b = UInt8.ofNat (v / 64 % 32 + 0xC0) ∨
        b = UInt8.ofNat (v / 4096 % 16 + 0xE0) ∨ b = UInt8.ofNat (v / 262144 % 8 + 0xF0) := by
      split at hb
      · exact .inl ⟨by simpa using hb.symm, ‹_›⟩
      · split at hb
        · exact .inr (.inl (by simpa using hb.symm))
        · split at hb
          · exact .inr (.inr (.inl (by simpa using hb.symm)))
          · exact .inr (.inr (.inr (by simpa using hb.symm)))
    rcases hb' with ⟨rfl, h⟩ | rfl | rfl | rfl <;> rw [toNat_byte (by omega)] <;> omega

theorem readFrom_ascii (h : b.toNat < 0x80) :
    readFrom .start (b :: bs) = Char.ofNat b.toNat :: readFrom .start bs := by
  simp only [readFrom, next, first, if_pos h, List.cons_append, List.nil_append]

/-- **A line feed ends what is before it**, so what follows is read on its own. -/
theorem lossy_line (x y : List UInt8) : lossy (x ++ 10 :: y) = lossy x ++ '\n' :: lossy y := by
  have hboundary : Boundary (10 :: y) := by
    intro b hb
    obtain rfl : 10 = b := by simpa using hb
    exact .inl (by decide)
  rw [lossy_append hboundary]
  exact congrArg (lossy x ++ ·) (readFrom_ascii (by decide))

/-! ### Bytes give text -/

theorem first_gives (b : Nat) : (first b).1 ≠ [] ∨ (first b).2 ≠ .start := by
  unfold first
  split_ifs <;> first | exact .inl (List.cons_ne_nil _ _) | exact .inr nofun

theorem next_gives (q : State) (b : Nat) : (next q b).1 ≠ [] ∨ (next q b).2 ≠ .start := by
  cases q with
  | start => exact first_gives b
  | inside low high owed bits hlow hhigh =>
    by_cases h : low ≤ b ∧ b ≤ high
    · cases owed with
      | zero   => left; simp [next, h]
      | succ n => right; simp [next, h]
    · left; simp [next, h]

theorem readFrom_ne_nil {q : State} (h : bs ≠ [] ∨ q ≠ .start) : readFrom q bs ≠ [] := by
  induction bs generalizing q with
  | nil =>
    cases q with
    | start  => simp at h
    | inside => exact List.cons_ne_nil _ _
  | cons b bs ih =>
    rcases next_gives q b.toNat with hnow | hlater
    · exact fun hnil => hnow (List.append_eq_nil_iff.1 hnil).1
    · exact fun hnil => ih (.inr hlater) (List.append_eq_nil_iff.1 hnil).2

theorem lossy_ne_nil (h : bs ≠ []) : lossy bs ≠ [] := readFrom_ne_nil (.inl h)

/-! ### Strict reading -/

/-- `str::len`. -/
def size (text : List Char) : Nat := (encode text).length

@[simp] theorem size_append (s t : List Char) : size (s ++ t) = size s + size t := by simp [size]

@[simp] theorem size_nil : size [] = 0 := rfl

theorem size_cons (c : Char) (text : List Char) : size (c :: text) = size [c] + size text :=
  size_append [c] text

theorem size_singleton_pos (c : Char) : 0 < size [c] := by
  simpa [size, encode] using c.utf8Size_pos

/-- `Utf8Error`, with the text that is valid. -/
structure Utf8Error where
  valid : List Char
  validUpTo : Nat
  errorLen : Option Nat

/-- The byte begins a character, or goes on with it. -/
def State.takes : State → Nat → Bool
  | .start, b => b < 0x80 || (first b).1.isEmpty
  | .inside low high _ _ _ _, b => low ≤ b && b ≤ high

/-- `str::from_utf8`, after so many bytes of whole characters and so many of an unfinished one. -/
def fromUtf8From (q : State) (valid : List Char) (read pending : Nat) :
    List UInt8 → Except Utf8Error (List Char)
  | [] =>
    match q with
    | .start     => .ok valid
    | .inside .. => .error ⟨valid, read, none⟩
  | b :: bs =>
    if q.takes b.toNat then
      match (next q b.toNat).2 with
      | .start =>
        fromUtf8From .start (valid ++ (next q b.toNat).1) (read + pending + 1) 0 bs
      | .inside low high owed bits hlow hhigh =>
        fromUtf8From (.inside low high owed bits hlow hhigh) (valid ++ (next q b.toNat).1) read
          (pending + 1) bs
    else .error ⟨valid, read, some (max 1 pending)⟩

def fromUtf8 (bytes : List UInt8) : Except Utf8Error (List Char) := fromUtf8From .start [] 0 0 bytes

/-- What the strict reading of bytes says of a lossy text. -/
def Mends (bytes : List UInt8) (text : List Char) : Except Utf8Error (List Char) → Prop
  | .ok valid => text = valid
  | .error ⟨valid, _, none⟩ => text = valid ++ [replacement]
  | .error ⟨valid, validUpTo, some n⟩ =>
    0 < n ∧ validUpTo + n ≤ bytes.length ∧
      text = valid ++ replacement :: lossy (bytes.drop (validUpTo + n))

theorem mends_fromUtf8From {q : State} {valid : List Char} {read pending : Nat} (done : List UInt8)
    (hdone : done.length = read + pending) (hpending : 0 < pending ↔ q ≠ .start) :
    Mends (done ++ bs) (valid ++ readFrom q bs) (fromUtf8From q valid read pending bs) := by
  induction bs generalizing q valid read pending done with
  | nil =>
    cases q with
    | start => exact List.append_nil _
    | inside => rfl
  | cons b bs ih =>
    rw [fromUtf8From]
    split
    · rw [readFrom, ← List.append_assoc, List.append_cons]
      split
      · next hnext =>
        rw [hnext]
        exact ih _ (by simp [hdone]) (by simp)
      · next hnext =>
        rw [hnext]
        exact ih _ (by simp [hdone, Nat.add_assoc]) (by simp)
    · next htakes =>
      cases q with
      | start =>
        obtain rfl : pending = 0 := by simpa using hpending
        have hfirst : first b.toNat = ([replacement], .start) := by
          simp only [State.takes, Bool.or_eq_true, decide_eq_true_eq, not_or] at htakes
          have hgives := htakes.2
          simp only [first] at hgives ⊢
          grind
        have hdrop : (done ++ b :: bs).drop (read + max 1 0) = bs := by
          rw [List.append_cons]
          exact List.drop_left' (by simp [hdone])
        refine ⟨by simp, by simp [hdone], ?_⟩
        rw [hdrop, readFrom, next, hfirst]
        rfl
      | inside low high owed bits hlow hhigh =>
        have hpos := hpending.mpr nofun
        refine ⟨by simp, by simp [hdone]; omega, ?_⟩
        rw [Nat.max_eq_right hpos, ← hdone, List.drop_left]
        simp only [readFrom, next]
        rw [if_neg (by simpa [State.takes] using htakes)]
        rfl

theorem mends_fromUtf8 (bytes : List UInt8) : Mends bytes (lossy bytes) (fromUtf8 bytes) :=
  mends_fromUtf8From [] rfl (by simp)

end Verlet.Support.Utf8
