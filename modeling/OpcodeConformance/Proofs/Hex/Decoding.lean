import Mathlib.Data.List.TakeWhile
import OpcodeConformance.Proofs.Hex

namespace OpcodeConformance

namespace Text

variable {cs core : List Char}

/-- What is left of a text without the blanks at its two ends. -/
def IsTrimmed (cs core : List Char) : Prop :=
  ∃ front back, cs = front ++ core ++ back ∧ (∀ c ∈ front ++ back, isBlank c) ∧
    ∀ c, c ∈ core.head? ∨ c ∈ core.getLast? → ¬isBlank c

theorem not_isBlank_of_mem_head? (cs : List Char) {c : Char}
    (h : c ∈ (cs.dropWhile isBlank).head?) : ¬isBlank c := by
  have hfirst := List.head?_dropWhile_not isBlank cs
  rw [Option.mem_def.mp h] at hfirst
  simpa using hfirst

theorem isTrimmed_trim (cs : List Char) : IsTrimmed cs (trim cs) := by
  let rest := cs.dropWhile isBlank
  have hback : rest = trim cs ++ (rest.reverse.takeWhile isBlank).reverse := by
    rw [trim, ← List.reverse_append, List.takeWhile_append_dropWhile, List.reverse_reverse]
  refine ⟨cs.takeWhile isBlank, (rest.reverse.takeWhile isBlank).reverse, ?_, fun c hc => ?_,
    fun c hc => ?_⟩
  · rw [List.append_assoc, ← hback, List.takeWhile_append_dropWhile]
  · rw [List.mem_append, List.mem_reverse] at hc
    rcases hc with hc | hc <;> exact List.mem_takeWhile_imp hc
  · rcases hc with hc | hc
    · -- a text that is left begins as the text without the blanks in front does
      apply not_isBlank_of_mem_head? cs
      change c ∈ rest.head?
      rw [hback, List.head?_append, Option.mem_def.mp hc]
      rfl
    · rw [trim, List.getLast?_reverse] at hc
      exact not_isBlank_of_mem_head? _ hc

theorem dropWhile_append_of_forall {front : List Char} (hfront : ∀ c ∈ front, isBlank c)
    (hcs : ∀ c ∈ cs.head?, ¬isBlank c) : (front ++ cs).dropWhile isBlank = cs := by
  rw [List.dropWhile_append_of_pos hfront]
  cases cs with
  | nil => rfl
  | cons c cs => rw [List.dropWhile_cons, if_neg (hcs c rfl)]

/-- Blanks can be taken away from the ends of a text in one way only. -/
theorem trim_of_isTrimmed (h : IsTrimmed cs core) : trim cs = core := by
  obtain ⟨front, back, rfl, hblank, hcore⟩ := h
  have hfront : ∀ c ∈ front, isBlank c := fun c hc => hblank c (List.mem_append_left _ hc)
  have hback : ∀ c ∈ back, isBlank c := fun c hc => hblank c (List.mem_append_right _ hc)
  cases core with
  | nil =>
    have hall : ((front ++ back) ++ []).dropWhile isBlank = [] :=
      dropWhile_append_of_forall hblank fun c hc => nomatch hc
    rw [List.append_nil] at hall
    rw [List.append_nil, trim, hall]
    rfl
  | cons d core =>
    have hrest : (front ++ (d :: core ++ back)).dropWhile isBlank = d :: core ++ back :=
      dropWhile_append_of_forall hfront fun c hc => hcore c (.inl hc)
    have hlast : (back.reverse ++ (d :: core).reverse).dropWhile isBlank = (d :: core).reverse := by
      apply dropWhile_append_of_forall
      · exact fun c hc => hback c (List.mem_reverse.mp hc)
      · exact fun c hc => hcore c (.inr (List.head?_reverse ▸ hc))
    rw [trim, List.append_assoc, hrest, List.reverse_append, hlast, List.reverse_reverse]

end Text

namespace Hex

def marks : List (List Char) := [['0', 'x'], ['0', 'X']]

/-- What stands in a text between blanks and behind its mark, if it has one. -/
def IsBody (s : String) (body : List Char) : Prop :=
  (∃ mark ∈ marks, Text.IsTrimmed s.toList (mark ++ body)) ∨
    Text.IsTrimmed s.toList body ∧ ∀ mark ∈ marks, ¬mark <+: body

theorem stripMark_cases (cs : List Char) :
    (∃ mark ∈ marks, mark ++ stripMark cs = cs) ∨
      stripMark cs = cs ∧ ∀ mark ∈ marks, ¬mark <+: cs := by
  unfold stripMark
  split
  · exact .inl ⟨['0', 'x'], .head _, rfl⟩
  · exact .inl ⟨['0', 'X'], .tail _ (.head _), rfl⟩
  · rename_i hlower hupper
    refine .inr ⟨rfl, ?_⟩
    simp only [marks, List.mem_cons, List.not_mem_nil, or_false]
    rintro mark (rfl | rfl) ⟨rest, h⟩
    · exact hlower rest h.symm
    · exact hupper rest h.symm

theorem isBody_digits (s : String) : IsBody s (digits s) := by
  have htrim := Text.isTrimmed_trim s.toList
  rcases stripMark_cases (Text.trim s.toList) with ⟨mark, hmark, h⟩ | ⟨h, hnone⟩
  · refine .inl ⟨mark, hmark, ?_⟩
    rwa [digits, h]
  · refine .inr ?_
    rw [digits, h]
    exact ⟨htrim, hnone⟩

theorem digits_of_isBody {s : String} {body : List Char} (h : IsBody s body) : digits s = body := by
  rcases h with ⟨mark, hmark, h⟩ | ⟨h, hnone⟩
  · rw [digits, Text.trim_of_isTrimmed h]
    simp only [marks, List.mem_cons, List.not_mem_nil, or_false] at hmark
    obtain rfl | rfl := hmark <;> rfl
  · rw [digits, Text.trim_of_isTrimmed h]
    rcases stripMark_cases body with ⟨mark, hmark, hbody⟩ | ⟨hbody, -⟩
    · exact absurd ⟨_, hbody⟩ (hnone mark hmark)
    · exact hbody

/-- There is one body in every text. -/
theorem isBody_iff {s : String} {body : List Char} : IsBody s body ↔ body = digits s := by
  constructor
  · intro h
    exact (digits_of_isBody h).symm
  · rintro rfl
    exact isBody_digits s

def IsDigit (c : Char) : Prop := '0' ≤ c ∧ c ≤ '9' ∨ 'a' ≤ c ∧ c ≤ 'f' ∨ 'A' ≤ c ∧ c ≤ 'F'

instance (c : Char) : Decidable (IsDigit c) := inferInstanceAs (Decidable (_ ∨ _))

theorem lt_of_isDigit {c : Char} (h : IsDigit c) : c.toNat < 128 := by
  have hle {last : Char} (hlast : last.toNat < 128) (hc : c ≤ last) : c.toNat < 128 :=
    Nat.lt_of_le_of_lt hc hlast
  rcases h with h | h | h
  · exact hle (by decide) h.2
  · exact hle (by decide) h.2
  · exact hle (by decide) h.2

theorem isDigit_iff {c : Char} (hc : c.toNat < 128) :
    IsDigit c ↔ (digitValue? (UInt8.ofNat c.toNat)).isSome := by
  apply Bytes.forall_ascii _ hc
  decide +kernel

theorem forall_ofChars_iff {cs : List Char} :
    (∀ b ∈ Bytes.ofChars cs, (digitValue? b).isSome) ↔ ∀ c ∈ cs, IsDigit c := by
  constructor
  · intro h c hmem
    have hbytes : ∀ b ∈ String.utf8EncodeChar c, (digitValue? b).isSome :=
      fun b hb => h b (List.mem_flatMap.mpr ⟨c, hmem, hb⟩)
    have hc := lt_of_forall_digit hbytes
    rw [isDigit_iff hc]
    exact hbytes _ (by simp [Bytes.utf8EncodeChar_of_lt hc])
  · intro h b hb
    obtain ⟨c, hmem, hb⟩ := List.mem_flatMap.mp hb
    have hc := lt_of_isDigit (h c hmem)
    rw [Bytes.utf8EncodeChar_of_lt hc, List.mem_singleton] at hb
    rw [hb, ← isDigit_iff hc]
    exact h c hmem

/-- Digits with a zero in front if their number is odd. -/
def padded (ds : Bytes) : Bytes := if ds.length % 2 = 1 then 48 :: ds else ds

theorem length_padded (ds : Bytes) : (padded ds).length = ds.length + ds.length % 2 := by
  unfold padded
  split
  · rw [List.length_cons]
    omega
  · omega

theorem forall_padded_iff {ds : Bytes} :
    (∀ d ∈ padded ds, (digitValue? d).isSome) ↔ ∀ d ∈ ds, (digitValue? d).isSome := by
  have hzero : (digitValue? 48).isSome := rfl
  unfold padded
  split
  · simp [hzero]
  · rfl

theorem decode_eq (s : String) : decode s = decodePairs 0 (padded (Bytes.ofChars (digits s))) := by
  have heven : ¬(padded (Bytes.ofChars (digits s))).length % 2 = 1 := by
    rw [length_padded]
    omega
  exact if_neg heven

theorem digitValue_eq_error {position : Nat} {b : UInt8} {p : HexProblem}
    (h : digitValue position b = .error p) : digitValue? b = none ∧ p = .badDigit b position := by
  unfold digitValue at h
  split at h
  · cases h
  · rename_i hnone
    cases h
    exact ⟨hnone, rfl⟩

/-- What is told of an even number of bytes that are not decoded: the first that is no digit. -/
theorem decodePairs_eq_error {position : Nat} {ds : Bytes} {p : HexProblem}
    (heven : ds.length % 2 = 0) (h : decodePairs position ds = .error p) :
    ∃ front bad back, ds = front ++ bad :: back ∧ (∀ d ∈ front, (digitValue? d).isSome) ∧
      digitValue? bad = none ∧ p = .badDigit bad (position + front.length) := by
  induction position, ds using decodePairs.induct with
  | case1 position high low ds ih =>
    rw [decodePairs] at h
    rcases Results.bind_eq_error h with h | ⟨x, hx, h⟩
    · obtain ⟨hnone, rfl⟩ := digitValue_eq_error h
      exact ⟨[], high, low :: ds, rfl, by simp, hnone, rfl⟩
    have hhigh : (digitValue? high).isSome := by rw [digitValue_eq_ok hx]; rfl
    rcases Results.bind_eq_error h with h | ⟨y, hy, h⟩
    · obtain ⟨hnone, rfl⟩ := digitValue_eq_error h
      exact ⟨[high], low, ds, rfl, by simpa using hhigh, hnone, rfl⟩
    have hlow : (digitValue? low).isSome := by rw [digitValue_eq_ok hy]; rfl
    rcases Results.bind_eq_error h with h | ⟨rest, -, h⟩
    · rw [List.length_cons, List.length_cons] at heven
      obtain ⟨front, bad, back, rfl, hfront, hnone, rfl⟩ := ih (by omega) h
      refine ⟨high :: low :: front, bad, back, rfl, ?_, hnone, ?_⟩
      · simp only [List.mem_cons]
        rintro d (rfl | rfl | hd)
        · exact hhigh
        · exact hlow
        · exact hfront d hd
      · rw [List.length_cons, List.length_cons, Nat.add_assoc, Nat.add_comm 2]
    · cases h
  | case2 position d => cases heven
  | case3 position => cases h

/-- A text that is not decoded has another character than digits, and the first byte of one is
told. -/
theorem decode_eq_error {s : String} {p : HexProblem} (h : decode s = .error p) :
    ∃ front bad back, padded (Bytes.ofChars (digits s)) = front ++ bad :: back ∧
      (∀ d ∈ front, (digitValue? d).isSome) ∧ digitValue? bad = none ∧
      p = .badDigit bad front.length := by
  have heven : (padded (Bytes.ofChars (digits s))).length % 2 = 0 := by
    rw [length_padded]
    omega
  rw [decode_eq] at h
  obtain ⟨front, bad, back, hds, hfront, hnone, rfl⟩ := decodePairs_eq_error heven h
  exact ⟨front, bad, back, hds, hfront, hnone, by rw [Nat.zero_add]⟩

theorem exists_decode_iff {s : String} : (∃ bs, decode s = .ok bs) ↔ ∀ c ∈ digits s, IsDigit c := by
  rw [← forall_ofChars_iff, ← forall_padded_iff]
  constructor
  · rintro ⟨bs, h⟩
    rw [decode_eq] at h
    exact (decodePairs_eq_ok h).2.1
  · intro hdigits
    cases h : decode s with
    | ok bs => exact ⟨bs, rfl⟩
    | error p =>
      obtain ⟨front, bad, back, hds, -, hnone, -⟩ := decode_eq_error h
      have hsome := hdigits bad (by rw [hds]; simp)
      rw [hnone] at hsome
      cases hsome

theorem ofChars_of_isDigit {cs : List Char} (h : ∀ c ∈ cs, IsDigit c) :
    Bytes.ofChars cs = cs.map fun c => UInt8.ofNat c.toNat :=
  Bytes.ofChars_of_lt fun c hc => lt_of_isDigit (h c hc)

theorem length_decode {s : String} {bs : Bytes} (h : decode s = .ok bs) :
    bs.length = ((digits s).length + 1) / 2 := by
  have hchars := ofChars_of_isDigit (exists_decode_iff.mp ⟨bs, h⟩)
  rw [decode_eq] at h
  have hlength := (decodePairs_eq_ok h).1
  rw [length_padded, hchars, List.length_map] at hlength
  omega

theorem digitChar_of_digitValue? {b v : UInt8} (h : digitValue? b = some v) :
    digitChar v = (Char.ofNat b.toNat).toLower := by
  have hall : ∀ b, (digitValue? b).all (fun v => digitChar v = (Char.ofNat b.toNat).toLower) := by
    apply Bytes.forall_byte
    decide +kernel
  have hb := hall b
  rw [h, Option.all_some] at hb
  exact of_decide_eq_true hb

theorem pair_of_halves {x y : UInt8} (hx : x.toNat < 16) (hy : y.toNat < 16) :
    pair (x * 16 + y) = [digitChar x, digitChar y] := by
  have hnat : (x * 16 + y).toNat = x.toNat * 16 + y.toNat := by
    rw [UInt8.toNat_add, UInt8.toNat_mul]
    change (x.toNat * 16 % 256 + y.toNat) % 256 = _
    omega
  have hhigh : (x * 16 + y) / 16 = x := by
    apply UInt8.toNat_inj.mp
    rw [UInt8.toNat_div, hnat]
    change (x.toNat * 16 + y.toNat) / 16 = _
    omega
  have hlow : (x * 16 + y) % 16 = y := by
    apply UInt8.toNat_inj.mp
    rw [UInt8.toNat_mod, hnat]
    change (x.toNat * 16 + y.toNat) % 16 = _
    omega
  rw [pair, hhigh, hlow]

/-- The bytes of decoded digits are encoded by the same digits in lowercase. -/
theorem flatMap_pair_of_decodePairs {position : Nat} {ds bs : Bytes}
    (h : decodePairs position ds = .ok bs) :
    bs.flatMap pair = ds.map fun b => (Char.ofNat b.toNat).toLower := by
  induction position, ds using decodePairs.induct generalizing bs with
  | case1 position high low ds ih =>
    obtain ⟨x, y, rest, hx, hy, hrest, rfl⟩ := decodePairs_cons h
    rw [List.flatMap_cons, pair_of_halves (digitValue?_lt hx) (digitValue?_lt hy), ih hrest,
      digitChar_of_digitValue? hx, digitChar_of_digitValue? hy]
    rfl
  | case2 position d => cases h
  | case3 position =>
    cases h
    rfl

/-- A decoded text is encoded by its digits in lowercase, behind a zero if their number is odd. -/
theorem encode_of_decode {s : String} {bs : Bytes} (h : decode s = .ok bs) :
    (encode bs).toList = '0' :: 'x' :: ((if (digits s).length % 2 = 1 then ['0'] else []) ++
      (digits s).map Char.toLower) := by
  have hdigits := exists_decode_iff.mp ⟨bs, h⟩
  have hchars := ofChars_of_isDigit hdigits
  have hlower : (Bytes.ofChars (digits s)).map (fun b => (Char.ofNat b.toNat).toLower) =
      (digits s).map Char.toLower := by
    rw [hchars, List.map_map]
    apply List.map_congr_left
    intro c hc
    have hlt := lt_of_isDigit (hdigits c hc)
    rw [Function.comp_apply, UInt8.toNat_ofNat', Nat.mod_eq_of_lt (by omega), Char.ofNat_toNat]
  rw [decode_eq] at h
  rw [encode, String.toList_ofList, flatMap_pair_of_decodePairs h, padded, hchars, List.length_map,
    ← hchars]
  split
  · rw [List.map_cons, hlower]
    rfl
  · rw [hlower]
    rfl

theorem decode_encode (bs : Bytes) : decode (encode bs) = .ok bs := by
  have hpairs := decodeEven_pairs bs
  have heven : ¬(Bytes.ofChars (bs.flatMap pair)).length % 2 = 1 := by
    rw [length_pairs]
    omega
  simpa only [decode, digits_encode, if_neg heven] using hpairs

end Hex

theorem decodeHex_eq_ok_iff {s : String} {bs : Bytes} :
    decodeHex s = .ok bs ↔ Hex.decode s = .ok bs := by
  unfold decodeHex
  cases Hex.decode s <;> simp [Except.mapError]

/-- A text is decoded if and only if there are only digits between its blanks and behind its mark.
Otherwise the first byte that is no digit is told. Two digits make a byte, the number of the text is
kept, and the hex form of the bytes is the text again: its digits in lowercase, with a zero in front
if their number is odd. Every byte string is decoded from its hex form. -/
theorem decodeHex_accepts_digits (s : String) :
    Hex.IsBody s (Hex.digits s) ∧
    ((∃ bs, decodeHex s = .ok bs) ↔ ∀ c ∈ Hex.digits s, Hex.IsDigit c) ∧
    ((¬∀ c ∈ Hex.digits s, Hex.IsDigit c) → ∃ front bad back,
      Hex.padded (Bytes.ofChars (Hex.digits s)) = front ++ bad :: back ∧
      (∀ b ∈ front, (Hex.digitValue? b).isSome) ∧ Hex.digitValue? bad = none ∧
      decodeHex s = .error (.invalidHex (HexProblem.badDigit bad front.length).message)) ∧
    (∀ bs, decodeHex s = .ok bs →
      bs.length = ((Hex.digits s).length + 1) / 2 ∧ Bytes.bigValue bs = Hex.number s ∧
      (Hex.encode bs).toList = '0' :: 'x' ::
        ((if (Hex.digits s).length % 2 = 1 then ['0'] else []) ++
          (Hex.digits s).map Char.toLower)) ∧
    ∀ bs, decodeHex (Hex.encode bs) = .ok bs := by
  refine ⟨Hex.isBody_digits s, ?_, fun hbad => ?_, fun bs h => ?_, fun bs => ?_⟩
  · simp only [decodeHex_eq_ok_iff]
    exact Hex.exists_decode_iff
  · cases h : Hex.decode s with
    | ok bs => exact absurd (Hex.exists_decode_iff.mp ⟨bs, h⟩) hbad
    | error p =>
      obtain ⟨front, bad, back, hd, hfront, hnone, rfl⟩ := Hex.decode_eq_error h
      refine ⟨front, bad, back, hd, hfront, hnone, ?_⟩
      rw [decodeHex, h]
      rfl
  · have hdecode := decodeHex_eq_ok_iff.mp h
    exact ⟨Hex.length_decode hdecode, Hex.bigValue_decode hdecode, Hex.encode_of_decode hdecode⟩
  · exact decodeHex_eq_ok_iff.mpr (Hex.decode_encode bs)

/-- Three digits of both cases make two bytes, and behind a mark another one is no digits. -/
theorem decodeHex_accepts_digits_odd :
    (∃ bs, decodeHex " \t0XaBc\n" = .ok bs ∧ bs.length = 2 ∧ Bytes.bigValue bs = 0xabc ∧
      Hex.encode bs = "0x0abc") ∧
    ∃ reason, decodeHex "0x0x1" = .error (.invalidHex reason) := by
  have hodd : Hex.digits " \t0XaBc\n" = ['a', 'B', 'c'] := by decide +kernel
  have hmarks : Hex.digits "0x0x1" = ['0', 'x', '1'] := by decide +kernel
  constructor
  · obtain ⟨-, haccepted, -, hdecoded, -⟩ := decodeHex_accepts_digits " \t0XaBc\n"
    have hgood : ∀ c ∈ Hex.digits " \t0XaBc\n", Hex.IsDigit c := by
      rw [hodd]
      simp only [List.mem_cons, List.not_mem_nil, or_false, forall_eq_or_imp, forall_eq]
      decide
    obtain ⟨bs, hbs⟩ := haccepted.mpr hgood
    obtain ⟨hlength, hvalue, hencode⟩ := hdecoded bs hbs
    rw [hodd] at hlength hencode
    refine ⟨bs, hbs, hlength, ?_, String.toList_inj.mp (hencode.trans rfl)⟩
    rw [hvalue]
    decide +kernel
  · obtain ⟨-, -, hrefused, -⟩ := decodeHex_accepts_digits "0x0x1"
    have hbad : ¬∀ c ∈ Hex.digits "0x0x1", Hex.IsDigit c := by
      rw [hmarks]
      exact fun h => absurd (h 'x' (.tail _ (.head _))) (by decide)
    obtain ⟨front, bad, back, -, -, -, herror⟩ := hrefused hbad
    exact ⟨_, herror⟩

end OpcodeConformance
