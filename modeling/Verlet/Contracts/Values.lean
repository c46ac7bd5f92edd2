import Mathlib.Data.Rat.Defs
import Mathlib.Data.BitVec
import Mathlib.Data.List.AList
import Mathlib.Tactic.IntervalCases
import Mathlib.Tactic.Ring

/-!
# Contracts — Values

The values every record is made of: 128-bit UUIDs with their hyphenated text, and JSON trees
as `serde_json::Value` holds them.

* `Uuid.parse_text`: `Uuid::parse_str` undoes `Display`; `Uuid.text_injective` is its corollary,
  and the reason a stream id names one thread.
-/

namespace Verlet

structure Uuid where
  bits : BitVec 128
deriving DecidableEq

namespace Uuid

/-! ### The text of a UUID -/

/-- The lower-case hexadecimal digits of `n`, `w` of them, most significant first. -/
def hexDigits : Nat → Nat → List Char
  | 0,     _ => []
  | w + 1, n => hexDigits w (n / 16) ++ [Nat.digitChar (n % 16)]

@[simp] theorem length_hexDigits : ∀ w n, (hexDigits w n).length = w
  | 0,     _ => rfl
  | w + 1, n => by simp [hexDigits, length_hexDigits w]

/-- Hyphens after the digits 8, 12, 16 and 20. -/
def hyphenate (d : List Char) : List Char :=
  d.take 8 ++ '-' :: ((d.drop 8).take 4 ++ '-' :: ((d.drop 12).take 4 ++ '-' ::
    ((d.drop 16).take 4 ++ '-' :: d.drop 20)))

/-- `Display`: the hyphenated form, `xxxxxxxx-xxxx-xxxx-xxxx-xxxxxxxxxxxx`. -/
def text (u : Uuid) : String := String.ofList (hyphenate (hexDigits 32 u.bits.toNat))

/-- `simple`: the digits alone. -/
def simple (u : Uuid) : String := String.ofList (hexDigits 32 u.bits.toNat)

/-- The value of one hexadecimal digit, either case. -/
def hexValue (c : Char) : Option Nat :=
  if '0' ≤ c ∧ c ≤ '9' then some (c.toNat - '0'.toNat)
  else if 'a' ≤ c ∧ c ≤ 'f' then some (c.toNat - 'a'.toNat + 10)
  else if 'A' ≤ c ∧ c ≤ 'F' then some (c.toNat - 'A'.toNat + 10)
  else none

/-- `acc` followed by the digits `cs`. -/
def readHex : List Char → Nat → Option Nat
  | [],      acc => some acc
  | c :: cs, acc => (hexValue c).bind fun d => readHex cs (16 * acc + d)

/-- `parse_simple`: 32 digits and nothing else. -/
def parseSimple (cs : List Char) : Option Uuid :=
  if cs.length = 32 then (readHex cs 0).map fun n => ⟨BitVec.ofNat 128 n⟩ else none

/-- `parse_hyphenated`: the digits of the five groups, the hyphens where they belong. -/
def parseHyphenated (cs : List Char) : Option Uuid :=
  if cs.length = 36 ∧ cs[8]? = some '-' ∧ cs[13]? = some '-' ∧ cs[18]? = some '-' ∧
      cs[23]? = some '-' then
    parseSimple (cs.take 8 ++ ((cs.drop 9).take 4 ++ ((cs.drop 14).take 4 ++
      ((cs.drop 19).take 4 ++ cs.drop 24))))
  else none

/-- `Uuid::parse_str`: the simple, hyphenated, braced and URN forms, told apart by length. -/
def parseStr (s : String) : Option Uuid :=
  let cs := s.toList
  if cs.length = 32 then parseSimple cs
  else if cs.length = 36 then parseHyphenated cs
  else if cs.length = 38 ∧ cs.head? = some '\x7b' ∧ cs.getLast? = some '\x7d' then
    parseHyphenated ((cs.drop 1).take 36)
  else if cs.length = 45 ∧ cs.take 9 = "urn:uuid:".toList then parseHyphenated (cs.drop 9)
  else none

theorem hexValue_digitChar (d : Nat) (h : d < 16) : hexValue (Nat.digitChar d) = some d := by
  interval_cases d <;> decide

theorem readHex_append (cs ds : List Char) (acc : Nat) :
    readHex (cs ++ ds) acc = (readHex cs acc).bind (readHex ds) := by
  induction cs generalizing acc with
  | nil => rfl
  | cons c cs ih =>
    cases h : hexValue c with
    | none => simp [readHex, h]
    | some d => simp [readHex, h, ih]

theorem readHex_hexDigits (w n acc : Nat) :
    readHex (hexDigits w n) acc = some (16 ^ w * acc + n % 16 ^ w) := by
  induction w generalizing n with
  | zero => simp [hexDigits, readHex, Nat.mod_one]
  | succ w ih =>
    have hd : n % 16 < 16 := Nat.mod_lt _ (by decide)
    have hsplit : n % 16 ^ (w + 1) = 16 * (n / 16 % 16 ^ w) + n % 16 := by
      rw [pow_succ, Nat.mul_comm, Nat.mod_mul]; omega
    rw [hexDigits, readHex_append, ih, Option.bind_some, readHex, hexValue_digitChar _ hd,
      Option.bind_some, readHex, hsplit]
    congr 1
    ring

theorem parseHyphenated_hyphenate {d : List Char} (h : d.length = 32) :
    parseHyphenated (hyphenate d) = parseSimple d := by
  have hd : d.take 8 ++ ((d.drop 8).take 4 ++ ((d.drop 12).take 4 ++ ((d.drop 16).take 4 ++
      d.drop 20))) = d := by
    conv_rhs => rw [← List.take_append_drop 8 d, ← List.take_append_drop 4 (d.drop 8),
      List.drop_drop, ← List.take_append_drop 4 (d.drop 12), List.drop_drop,
      ← List.take_append_drop 4 (d.drop 16), List.drop_drop]
  have h₈ : (d.take 8).length = 8 := by simp [h]
  have h₁₂ : ((d.drop 8).take 4).length = 4 := by simp [h]
  have h₁₆ : ((d.drop 12).take 4).length = 4 := by simp [h]
  have h₂₀ : ((d.drop 16).take 4).length = 4 := by simp [h]
  have hr : (d.drop 20).length = 12 := by simp [h]
  revert hd h₈ h₁₂ h₁₆ h₂₀ hr
  unfold parseHyphenated hyphenate
  generalize d.take 8 = a, (d.drop 8).take 4 = b, (d.drop 12).take 4 = c,
    (d.drop 16).take 4 = e, d.drop 20 = f
  rintro rfl h₈ h₁₂ h₁₆ h₂₀ hr
  have past {n : Nat} {l : List Char} (hl : l.length ≤ n) : l.drop n = [] :=
    List.drop_eq_nil_of_le hl
  simp [List.drop_append, h₈, h₁₂, h₁₆, h₂₀, hr, past]

/-- **`parse_str` undoes `Display`.** -/
theorem parse_text (u : Uuid) : parseStr u.text = some u := by
  have hlen : (hyphenate (hexDigits 32 u.bits.toNat)).length = 36 := by
    simp [hyphenate, length_hexDigits]
  have hbits : u.bits.toNat % 16 ^ 32 = u.bits.toNat := Nat.mod_eq_of_lt u.bits.isLt
  simp only [parseStr, text, String.toList_ofList, hlen]
  simp only [Nat.reduceEqDiff, if_false, if_true]
  rw [parseHyphenated_hyphenate (length_hexDigits 32 _), parseSimple,
    if_pos (length_hexDigits 32 _), readHex_hexDigits, hbits]
  simp

theorem digitChar_ne_colon : ∀ n < 16, Nat.digitChar n ≠ ':' := by decide

theorem colon_notMem_hexDigits (w n : Nat) : ':' ∉ hexDigits w n := by
  induction w generalizing n with
  | zero => simp [hexDigits]
  | succ w ih =>
    simp only [hexDigits, List.mem_append, List.mem_singleton, not_or]
    exact ⟨ih _, (digitChar_ne_colon _ (Nat.mod_lt _ (by decide))).symm⟩

theorem colon_notMem_text (u : Uuid) : ':' ∉ u.text.toList := by
  have hdigits := colon_notMem_hexDigits 32 u.bits.toNat
  have htake : ∀ i j, ':' ∉ ((hexDigits 32 u.bits.toNat).drop i).take j := fun i j h =>
    hdigits (List.mem_of_mem_drop (List.mem_of_mem_take h))
  have hdrop : ∀ i, ':' ∉ (hexDigits 32 u.bits.toNat).drop i := fun i h =>
    hdigits (List.mem_of_mem_drop h)
  have hfirst := htake 0 8
  rw [List.drop_zero] at hfirst
  simp [text, hyphenate, hfirst, htake, hdrop]

theorem text_injective : Function.Injective text := fun u v h => by
  have := parse_text u
  rw [h, parse_text v] at this
  exact (Option.some.inj this).symm

end Uuid

/-! ### JSON -/

/-- A JSON number: an integer token, or a finite binary64 as the rational it denotes. -/
inductive JsonNumber where
  | int (value : Int)
  | float (value : ℚ)
deriving DecidableEq

/-- `serde_json::Value`.  An object is its listing by key, every key once. -/
inductive Json where
  | null
  | bool (value : Bool)
  | num (value : JsonNumber)
  | str (text : String)
  | arr (items : List Json)
  | obj (fields : List (String × Json))

namespace Json

mutual
/-- Equality of JSON trees, by the tree. -/
def decEq : (a b : Json) → Decidable (a = b)
  | .null,   .null   => .isTrue rfl
  | .bool a, .bool b => decidable_of_iff (a = b) (by simp)
  | .num a,  .num b  => decidable_of_iff (a = b) (by simp)
  | .str a,  .str b  => decidable_of_iff (a = b) (by simp)
  | .arr a,  .arr b  =>
    match decEqItems a b with
    | .isTrue h  => .isTrue (by rw [h])
    | .isFalse h => .isFalse (by simp [h])
  | .obj a,  .obj b =>
    match decEqFields a b with
    | .isTrue h  => .isTrue (by rw [h])
    | .isFalse h => .isFalse (by simp [h])
  | .null, .bool _ | .null, .num _ | .null, .str _ | .null, .arr _ | .null, .obj _
  | .bool _, .null | .bool _, .num _ | .bool _, .str _ | .bool _, .arr _ | .bool _, .obj _
  | .num _, .null | .num _, .bool _ | .num _, .str _ | .num _, .arr _ | .num _, .obj _
  | .str _, .null | .str _, .bool _ | .str _, .num _ | .str _, .arr _ | .str _, .obj _
  | .arr _, .null | .arr _, .bool _ | .arr _, .num _ | .arr _, .str _ | .arr _, .obj _
  | .obj _, .null | .obj _, .bool _ | .obj _, .num _ | .obj _, .str _ | .obj _, .arr _ =>
    .isFalse (by simp)

/-- Equality of the items of two arrays. -/
def decEqItems : (a b : List Json) → Decidable (a = b)
  | [],      []      => .isTrue rfl
  | [],      _ :: _  => .isFalse (by simp)
  | _ :: _,  []      => .isFalse (by simp)
  | a :: as, b :: bs =>
    match decEq a b, decEqItems as bs with
    | .isTrue h,  .isTrue hs  => .isTrue (by rw [h, hs])
    | .isFalse h, _           => .isFalse (by simp [h])
    | _,          .isFalse hs => .isFalse (by simp [hs])

/-- Equality of the fields of two objects. -/
def decEqFields : (a b : List (String × Json)) → Decidable (a = b)
  | [],      [] => .isTrue rfl
  | [],      _ :: _ => .isFalse (by simp)
  | _ :: _,  [] => .isFalse (by simp)
  | (k, a) :: as, (l, b) :: bs =>
    if hk : k = l then
      match decEq a b, decEqFields as bs with
      | .isTrue h,  .isTrue hs  => .isTrue (by rw [hk, h, hs])
      | .isFalse h, _           => .isFalse (by simp [h])
      | _,          .isFalse hs => .isFalse (by simp [hs])
    else .isFalse (by simp [hk])
end

instance : DecidableEq Json := decEq

/-- `Value::as_object`. -/
def asObject : Json → Option (List (String × Json))
  | .obj fields => some fields
  | _           => none

/-- `Value::as_array`. -/
def asArray : Json → Option (List Json)
  | .arr items => some items
  | _          => none

/-- `Value::as_str`. -/
def asStr : Json → Option String
  | .str text => some text
  | _         => none

/-- `Map::get`. -/
def get? (fields : List (String × Json)) (key : String) : Option Json := fields.lookup key

/-- `Map::contains_key`. -/
def containsKey (fields : List (String × Json)) (key : String) : Bool := (get? fields key).isSome

/-- `value[key]`: `null` where the value is no object or lacks the key. -/
def index (value : Json) (key : String) : Json :=
  (value.asObject.bind fun fields => get? fields key).getD .null

/-- `id.map(|id| id.to_string())` inside `json!`. -/
def ofOption {α : Type} (toText : α → String) : Option α → Json
  | none   => .null
  | some a => .str (toText a)

/-- `Ord` of `String`: by bytes, which in UTF-8 is by code points. -/
def textBefore : List Char → List Char → Bool
  | [],      []      => false
  | [],      _ :: _  => true
  | _ :: _,  []      => false
  | a :: as, b :: bs => a.toNat < b.toNat || (a = b && textBefore as bs)

/-- `Map::insert`: the listing by key stays sorted, an equal key is replaced. -/
def insertField (key : String) (value : Json) : List (String × Json) → List (String × Json)
  | []             => [(key, value)]
  | (k, v) :: rest =>
    if key = k then (key, value) :: rest
    else if textBefore key.toList k.toList then (key, value) :: (k, v) :: rest
    else (k, v) :: insertField key value rest

/-- The object with these fields, inserted in order. -/
def object (fields : List (String × Json)) : List (String × Json) :=
  fields.foldl (fun m (k, v) => insertField k v m) []

@[simp] theorem get?_nil (key : String) : get? [] key = none := rfl

theorem get?_cons (key k : String) (v : Json) (rest : List (String × Json)) :
    get? ((k, v) :: rest) key = if key = k then some v else get? rest key := by
  by_cases h : key = k
  · simp [get?, h]
  · simp [get?, List.lookup_cons, h, beq_eq_false_iff_ne.mpr h]

@[simp] theorem get?_insertField (key k : String) (v : Json) (fields : List (String × Json)) :
    get? (insertField k v fields) key = if key = k then some v else get? fields key := by
  induction fields with
  | nil => rw [insertField, get?_cons]
  | cons field rest ih =>
    obtain ⟨k', v'⟩ := field
    rw [insertField]
    split
    · next h => subst h; simp only [get?_cons]; split <;> rfl
    · next h =>
      split
      · exact get?_cons key k v _
      · rw [get?_cons, ih, get?_cons]
        by_cases hk : key = k'
        · subst hk; simp [Ne.symm h]
        · simp [hk]

end Json

end Verlet
