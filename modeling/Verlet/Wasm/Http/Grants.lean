import Verlet.Wasm.Http
import Verlet.Support.Delimited

/-!
# Wasm — What a network grant says

`http_capability_matches`, against the meaning of a grant.
-/

namespace Verlet.Wasm
open Support

/-! ### Patterns -/

/-- The value matches the pattern: a star stands for any bytes, and every other byte for itself. -/
def Matches (pattern value : String) : Prop :=
  Glob 42 (Utf8.encode pattern.toList) (Utf8.encode value.toList)

variable {c : Char} {text : List Char} {pattern value method origin : String}

theorem mem_of_mem_encode (hc : c.toNat < 0x80) (h : UInt8.ofNat c.toNat ∈ Utf8.encode text) :
    c ∈ text := by
  obtain ⟨d, hd, hbyte⟩ := List.mem_flatMap.mp h
  have hback : Char.ofNat d.val.toNat = d := Char.ofNat_toNat d
  suffices hsame : d.val.toNat = c.toNat by
    rw [hsame, Char.ofNat_toNat] at hback
    rwa [hback]
  unfold String.utf8EncodeChar at hbyte
  generalize d.val.toNat = v at hbyte
  have hsame {n : Nat} (h : UInt8.ofNat c.toNat = UInt8.ofNat n) (hn : n < 256) : c.toNat = n := by
    have := congrArg UInt8.toNat h
    rwa [Utf8.toNat_byte (by omega), Utf8.toNat_byte hn] at this
  dsimp only at hbyte
  split at hbyte
  · exact (hsame (List.mem_singleton.mp hbyte) (by omega)).symm
  · split at hbyte
    · simp only [List.mem_cons, List.not_mem_nil, or_false] at hbyte
      rcases hbyte with h | h <;> have := hsame h (by omega) <;> omega
    · split at hbyte
      · simp only [List.mem_cons, List.not_mem_nil, or_false] at hbyte
        rcases hbyte with h | h | h <;> have := hsame h (by omega) <;> omega
      · simp only [List.mem_cons, List.not_mem_nil, or_false] at hbyte
        rcases hbyte with h | h | h | h <;> have := hsame h (by omega) <;> omega

theorem wildcardMatch_sound (h : wildcardMatch pattern value = true) : Matches pattern value :=
  globMatch_sound h

theorem wildcardMatch_iff (hvalue : '*' ∉ value.toList) :
    wildcardMatch pattern value = true ↔ Matches pattern value :=
  globMatch_iff (mt (mem_of_mem_encode (by decide : '*'.toNat < 0x80)) hvalue)

/-! ### Grants -/

/-- What follows `net.http:` is a pattern, for the method or for any. -/
def Pairs (method rest pattern : String) : Prop :=
  ∃ name ∈ ["*", method], rest = name ++ ":" ++ pattern

/-- What a grant says: everything, the origins of a pattern for a method or for any, or those of a
pattern. -/
def Allows (grant method origin : String) : Prop :=
  ∃ rest, grant = "net.http" ++ ":" ++ rest ∧
    (rest = "*" ∨ (∃ pattern, Pairs method rest pattern ∧ Matches pattern origin) ∨
      (∀ pattern, ¬Pairs method rest pattern) ∧ Matches rest origin)

variable {front rest : String} {list tail : List Char}

theorem joined_iff : rest = front ++ ":" ++ pattern ↔ rest.toList = front.toList ++ ':' :: pattern.toList := by
  rw [← String.toList_inj]
  simp

theorem stripped_iff :
    (list.dropPrefix? front.toList).bind (·.dropPrefix? [':']) = some tail ↔
      String.ofList list = front ++ ":" ++ String.ofList tail := by
  rw [joined_iff, String.toList_ofList, String.toList_ofList]
  simp only [Option.bind_eq_some_iff, List.dropPrefix?_eq_some_iff, beq_iff_eq]
  constructor
  · rintro ⟨_, ⟨_, rfl, rfl⟩, _, rfl, rfl⟩
    rfl
  · rintro rfl
    exact ⟨_, ⟨_, rfl, rfl⟩, _, rfl, rfl⟩

theorem starred_iff : list.dropPrefix? ['*', ':'] = some tail ↔
    String.ofList list = "*" ++ ":" ++ String.ofList tail := by
  rw [joined_iff, String.toList_ofList, String.toList_ofList, List.dropPrefix?_eq_some_iff]
  simp

theorem colon_notMem (hmethod : ':' ∉ method.toList) : ∀ name ∈ ["*", method], ':' ∉ name.toList := by
  simpa using hmethod

theorem Pairs.unique (hmethod : ':' ∉ method.toList) {pattern' : String} (h : Pairs method rest pattern)
    (h' : Pairs method rest pattern') : pattern = pattern' := by
  obtain ⟨name, hmem, h⟩ := h
  obtain ⟨name', hmem', h'⟩ := h'
  rw [joined_iff] at h h'
  exact String.toList_inj.mp ((joined_inj (colon_notMem hmethod _ hmem)
    (colon_notMem hmethod _ hmem')).mp (h.symm.trans h')).2

theorem httpCapabilityMatches_iff (hmethod : ':' ∉ method.toList) (grant : String) :
    httpCapabilityMatches grant "net.http" method origin = true ↔
      ∃ rest, grant = "net.http" ++ ":" ++ rest ∧
        (rest = "*" ∨ (∃ pattern, Pairs method rest pattern ∧ wildcardMatch pattern origin = true) ∨
          (∀ pattern, ¬Pairs method rest pattern) ∧ wildcardMatch rest origin = true) := by
  rw [httpCapabilityMatches]
  split
  · next hnone =>
    refine iff_of_false Bool.false_ne_true ?_
    rintro ⟨rest, hgrant, -⟩
    have hsome := (@stripped_iff "net.http" grant.toList rest.toList).mpr (by simpa using hgrant)
    cases hnone.symm.trans hsome
  · next tail hsome =>
    obtain rfl : grant = "net.http" ++ ":" ++ String.ofList tail := by
      simpa using stripped_iff.mp hsome
    have hrest {rest : String} : "net.http" ++ ":" ++ String.ofList tail = "net.http" ++ ":" ++ rest ↔
        rest = String.ofList tail := by
      rw [String.append_right_inj, eq_comm]
    simp only [hrest, exists_eq_left]
    split
    · next hall => simp [hall]
    · next hall =>
      have hstar : String.ofList tail ≠ "*" := fun h => hall (by simpa using congrArg String.toList h)
      have hpaired {pattern : String} (h : Pairs method (String.ofList tail) pattern) :
          wildcardMatch pattern origin = true ↔ String.ofList tail = "*" ∨
            (∃ pattern, Pairs method (String.ofList tail) pattern ∧ wildcardMatch pattern origin = true) ∨
            (∀ pattern, ¬Pairs method (String.ofList tail) pattern) ∧
              wildcardMatch (String.ofList tail) origin = true :=
        ⟨fun hmatch => .inr (.inl ⟨pattern, h, hmatch⟩), by
          rintro (hsame | ⟨pattern', h', hmatch⟩ | ⟨hnone, -⟩)
          · exact absurd hsame hstar
          · exact h.unique hmethod h' ▸ hmatch
          · exact absurd h (hnone pattern)⟩
      split
      · next pattern hany =>
        exact hpaired ⟨"*", .head _, starred_iff.mp hany⟩
      · next hany =>
        split
        · next pattern hone => exact hpaired ⟨method, .tail _ (.head _), stripped_iff.mp hone⟩
        · next hone =>
          have hnone : ∀ pattern, ¬Pairs method (String.ofList tail) pattern := by
            rintro pattern ⟨name, hname, h⟩
            rw [← String.ofList_toList (s := pattern)] at h
            rcases List.mem_pair.mp hname with rfl | rfl
            · cases hany.symm.trans (starred_iff.mpr h)
            · cases hone.symm.trans (stripped_iff.mpr h)
          simp [hstar, hnone]

theorem httpOrigin_scheme {url : Url} (h : httpOrigin url = some origin) :
    ∃ more, origin = url.scheme ++ ":" ++ more := by
  obtain ⟨host, -, rfl⟩ := Option.map_eq_some_iff.mp h
  dsimp only
  generalize (if host.toList.contains ':' ∧ host.toList.head? ≠ some '[' then "[" ++ host ++ "]" else host) =
    shown
  split
  · next port _ => exact ⟨"//" ++ shown ++ ":" ++ toString port, by simp [← String.toList_inj]⟩
  · exact ⟨"//" ++ shown, by simp [← String.toList_inj]⟩

theorem Matches.name {name name' more : String} (hcolon : ':' ∉ name.toList) (hstar : '*' ∉ name.toList)
    (hcolon' : ':' ∉ name'.toList) (h : Matches (name ++ ":" ++ pattern) (name' ++ ":" ++ more)) :
    name = name' := by
  have hbyte {text : String} (h : ':' ∉ text.toList) : (58 : UInt8) ∉ Utf8.encode text.toList :=
    mt (mem_of_mem_encode (by decide : ':'.toNat < 0x80)) h
  have hletters : (42 : UInt8) ∉ Utf8.encode name.toList :=
    mt (mem_of_mem_encode (by decide : '*'.toNat < 0x80)) hstar
  rw [Matches, joined_iff.mp rfl, joined_iff.mp rfl, Utf8.encode_append, Utf8.encode_append,
    Glob.append_iff hletters] at h
  obtain ⟨_, hsplit, h⟩ := h
  obtain ⟨_, rfl, -⟩ := (Glob.cons_iff (by decide : (58 : UInt8) ≠ 42)).mp h
  have hsame := ((joined_inj (hbyte hcolon') (hbyte hcolon)).mp hsplit).1
  rw [← String.toList_inj, ← Utf8.lossy_encode name.toList, ← hsame, Utf8.lossy_encode]

/-- **What a grant allows.**  A grant that matches says so, whatever the origin; where the origin has no
star, one that says so matches.  So one for another method, named without a star, matches nothing. -/
theorem net_grant_allows (hmethod : ':' ∉ method.toList) (origin : String) :
    (∀ grant, httpCapabilityMatches grant "net.http" method origin = true → Allows grant method origin) ∧
      ('*' ∉ origin.toList → ∀ grant, Allows grant method origin →
        httpCapabilityMatches grant "net.http" method origin = true) ∧
      (∀ url name pattern, httpOrigin url = some origin → url.scheme ∈ ["http", "https"] →
        ':' ∉ name.toList → '*' ∉ name.toList → name ∉ ["http", "https", method] →
        httpCapabilityMatches ("net.http" ++ ":" ++ (name ++ ":" ++ pattern)) "net.http" method origin =
          false) ∧
      ∀ pattern value, (wildcardMatch pattern value = true → Matches pattern value) ∧
        ('*' ∉ value.toList → Matches pattern value → wildcardMatch pattern value = true) := by
  have hsound : ∀ grant, httpCapabilityMatches grant "net.http" method origin = true →
      Allows grant method origin := by
    intro grant h
    obtain ⟨rest, hgrant, h⟩ := (httpCapabilityMatches_iff hmethod grant).mp h
    exact ⟨rest, hgrant, h.imp_right (.imp (.imp fun _ => .imp_right wildcardMatch_sound)
      (.imp_right wildcardMatch_sound))⟩
  refine ⟨hsound, fun horigin grant h => ?_, fun url name pattern horigin hscheme hcolon hstar hname => ?_,
    fun pattern value => ⟨wildcardMatch_sound, fun hvalue => (wildcardMatch_iff hvalue).mpr⟩⟩
  · rw [httpCapabilityMatches_iff hmethod]
    simp only [wildcardMatch_iff horigin]
    exact h
  · rw [Bool.eq_false_iff]
    intro hmatches
    obtain ⟨rest, hgrant, h⟩ := hsound _ hmatches
    obtain rfl := (String.append_right_inj _).mp hgrant
    rcases h with hall | ⟨_, ⟨name', hmem, hsame⟩, -⟩ | ⟨-, h⟩
    · exact joined_ne (by decide : ':' ∉ ['*']) _
        ((joined_iff.mp rfl).symm.trans (congrArg String.toList hall)).symm
    · rw [joined_iff, joined_iff.mp rfl, joined_inj hcolon (colon_notMem hmethod _ hmem),
        String.toList_inj] at hsame
      rcases List.mem_pair.mp hmem with rfl | rfl
      · exact hstar (by simp [hsame.1])
      · exact hname (by simp [hsame.1])
    · obtain ⟨more, rfl⟩ := httpOrigin_scheme horigin
      have hscheme' : ':' ∉ url.scheme.toList := by
        rcases List.mem_pair.mp hscheme with h | h <;> rw [h] <;> decide
      rw [h.name hcolon hstar hscheme'] at hname
      simp_all

def plainUrl : Url := ⟨"https://a/", "https", "", none, none, some "a", none, none, none⟩

theorem net_grant_allows_get :
    httpCapabilityMatches ("net.http" ++ ":" ++ ("PUT" ++ ":" ++ "*")) "net.http" "GET" "https://a" = false :=
  (@net_grant_allows "GET" (by decide) "https://a").2.2.1 plainUrl "PUT" "*" rfl (by decide) (by decide)
    (by decide) (by decide)

/-- **A name with a star allows what it stands for, and a star in the value may hide a match.** -/
theorem starred_names :
    httpCapabilityMatches ("net.http" ++ ":" ++ ("h*" ++ ":" ++ "*")) "net.http" "GET" "http://a" = true ∧
      wildcardMatch "*" "*a" = false ∧ Matches "*" "*a" := by
  refine ⟨by decide, by decide, ?_⟩
  exact Glob.star_iff.mpr ⟨[], List.nil_suffix, .nil⟩

end Verlet.Wasm
