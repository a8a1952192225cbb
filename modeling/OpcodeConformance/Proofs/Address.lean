import OpcodeConformance.Proofs.Hex.Decoding
import OpcodeConformance.Proofs.Json

namespace OpcodeConformance

namespace Hex

variable {s : String}

/-- The text has nothing but digits, and these come in pairs. -/
def IsPaired (s : String) : Prop := (digits s).length % 2 = 0 ∧ ∀ c ∈ digits s, IsDigit c

theorem forall_isDigit {cs : List Char} (h : cs.all (IsDigit ·) = true) : ∀ c ∈ cs, IsDigit c :=
  fun c hc => of_decide_eq_true (List.all_eq_true.mp h c hc)

theorem length_ofChars_digits (h : ∀ c ∈ digits s, IsDigit c) :
    (Bytes.ofChars (digits s)).length = (digits s).length := by
  rw [ofChars_of_isDigit h, List.length_map]

theorem not_isPaired_iff :
    ¬IsPaired s ↔ (Bytes.ofChars (digits s)).length % 2 = 1 ∨ ∃ c ∈ digits s, ¬IsDigit c := by
  by_cases hdigits : ∀ c ∈ digits s, IsDigit c
  · rw [length_ofChars_digits hdigits]
    constructor
    · intro h
      have heven : ¬(digits s).length % 2 = 0 := fun heven => h ⟨heven, hdigits⟩
      exact .inl (by omega)
    · rintro (hodd | ⟨c, hc, hbad⟩) ⟨heven, -⟩
      · omega
      · exact hbad (hdigits c hc)
  · have hsome : ∃ c ∈ digits s, ¬IsDigit c := by
      simpa only [not_forall, exists_prop] using hdigits
    exact ⟨fun _ => .inr hsome, fun _ hpaired => hdigits hpaired.2⟩

/-- An odd number of bytes is told, whatever they are. -/
theorem decodeEven_of_odd {ds : Bytes} (h : ds.length % 2 = 1) :
    decodeEven ds = .error .oddDigits := if_pos h

/-- Where the number of bytes is even, both readers read the same, problems included. -/
theorem decodeEven_of_even (h : ¬(Bytes.ofChars (digits s)).length % 2 = 1) :
    decodeEven (Bytes.ofChars (digits s)) = decode s := by
  rw [decode_eq, decodeEven, padded, if_neg h, if_neg h]

end Hex

theorem exists_decodeHex_iff {s : String} :
    (∃ bs, decodeHex s = .ok bs) ↔ ∀ c ∈ Hex.digits s, Hex.IsDigit c := by
  simp only [decodeHex_eq_ok_iff]
  exact Hex.exists_decode_iff

namespace Address

variable {s : String} {a : Address} {bs : Bytes}

theorem ofBytes_eq_ok_iff : ofBytes bs = .ok a ↔ bs = a.bytes := by
  unfold ofBytes
  split
  · cases a
    simp
  · rename_i h
    simp only [reduceCtorEq, false_iff]
    rintro rfl
    exact h a.length_bytes

theorem ofBytes_eq_error_iff {e : EncodingError} :
    ofBytes bs = .error e ↔ bs.length ≠ addressSize ∧ e = .invalidLength addressSize bs.length := by
  unfold ofBytes
  split <;> rename_i h <;> simp [h, eq_comm]

theorem ofHex_of_odd (h : (Bytes.ofChars (Hex.digits s)).length % 2 = 1) :
    ofHex s = .error (.ofHex .oddDigits) := by
  rw [ofHex, Hex.decodeEven_of_odd h]
  rfl

theorem ofHex_of_even (h : ¬(Bytes.ofChars (Hex.digits s)).length % 2 = 1) :
    ofHex s = decodeHex s >>= ofBytes := by
  rw [ofHex, Hex.decodeEven_of_even h, decodeHex]

/-- Pairs of digits are decoded, and then their number counts. -/
theorem ofHex_of_isPaired (h : Hex.IsPaired s) :
    ∃ bs, decodeHex s = .ok bs ∧ (Hex.digits s).length = 2 * bs.length ∧ ofHex s = ofBytes bs := by
  obtain ⟨heven, hdigits⟩ := h
  obtain ⟨bs, hbs⟩ := exists_decodeHex_iff.mpr hdigits
  have hlength := Hex.length_decode (decodeHex_eq_ok_iff.mp hbs)
  have hbytes := Hex.length_ofChars_digits hdigits
  refine ⟨bs, hbs, by omega, ?_⟩
  rw [ofHex_of_even (by omega), hbs]
  rfl

/-- What does not consist of pairs of digits is told as such, of whatever length it is. -/
theorem invalidHex_of_not_isPaired (h : ¬Hex.IsPaired s) :
    ∃ reason, ofHex s = .error (.invalidHex reason) := by
  by_cases hodd : (Bytes.ofChars (Hex.digits s)).length % 2 = 1
  · exact ⟨_, ofHex_of_odd hodd⟩
  · have hbad : ¬∀ c ∈ Hex.digits s, Hex.IsDigit c := by
      obtain hodd' | ⟨c, hc, hbad⟩ := Hex.not_isPaired_iff.mp h
      · exact absurd hodd' hodd
      · exact fun hdigits => hbad (hdigits c hc)
    cases hread : Hex.decode s with
    | ok bs => exact absurd (Hex.exists_decode_iff.mp ⟨bs, hread⟩) hbad
    | error p =>
      refine ⟨p.message, ?_⟩
      rw [ofHex_of_even hodd, decodeHex, hread]
      rfl

theorem exists_ofHex_iff :
    (∃ a, ofHex s = .ok a) ↔ (Hex.digits s).length = 40 ∧ ∀ c ∈ Hex.digits s, Hex.IsDigit c := by
  by_cases h : Hex.IsPaired s
  · obtain ⟨bs, -, hlength, hread⟩ := ofHex_of_isPaired h
    rw [hread]
    constructor
    · rintro ⟨a, ha⟩
      have hsize : bs.length = 20 := ofBytes_eq_ok_iff.mp ha ▸ a.length_bytes
      exact ⟨by omega, h.2⟩
    · rintro ⟨hforty, -⟩
      have hsize : bs.length = addressSize := by
        rw [addressSize]
        omega
      exact ⟨⟨bs, hsize⟩, ofBytes_eq_ok_iff.mpr rfl⟩
  · obtain ⟨reason, hread⟩ := invalidHex_of_not_isPaired h
    rw [hread]
    constructor
    · rintro ⟨a, ha⟩
      cases ha
    · rintro ⟨hforty, hdigits⟩
      exact absurd ⟨by omega, hdigits⟩ h

theorem exists_invalidHex_iff :
    (∃ reason, ofHex s = .error (.invalidHex reason)) ↔ ¬Hex.IsPaired s := by
  constructor
  · rintro ⟨reason, hreason⟩ h
    obtain ⟨bs, -, -, hread⟩ := ofHex_of_isPaired h
    have herror := ofBytes_eq_error_iff.mp (hread.symm.trans hreason)
    cases herror.2
  · exact invalidHex_of_not_isPaired

theorem ofHex_eq_invalidLength_iff {expected actual : Nat} :
    ofHex s = .error (.invalidLength expected actual) ↔
      expected = 20 ∧ actual = (Hex.digits s).length / 2 ∧ Hex.IsPaired s ∧
        (Hex.digits s).length ≠ 40 := by
  by_cases h : Hex.IsPaired s
  · obtain ⟨bs, -, hlength, hread⟩ := ofHex_of_isPaired h
    rw [hread, ofBytes_eq_error_iff, EncodingError.invalidLength.injEq, addressSize]
    constructor
    · rintro ⟨hsize, rfl, rfl⟩
      exact ⟨rfl, by omega, h, by omega⟩
    · rintro ⟨rfl, rfl, -, hforty⟩
      exact ⟨by omega, rfl, by omega⟩
  · obtain ⟨reason, hread⟩ := invalidHex_of_not_isPaired h
    rw [hread]
    simp [h]

theorem decodeHex_of_ofHex (h : ofHex s = .ok a) : decodeHex s = .ok a.bytes := by
  obtain ⟨hforty, hdigits⟩ := exists_ofHex_iff.mp ⟨a, h⟩
  obtain ⟨bs, hbs, -, hread⟩ := ofHex_of_isPaired ⟨by omega, hdigits⟩
  rw [hbs, ofBytes_eq_ok_iff.mp (hread.symm.trans h)]

end Address

/-- A text is an address if and only if it has forty digits between blanks and behind at most one
mark, and then it is decoded to the bytes of the address. It is told to be no digits if and only if
it has an odd number of bytes there or another character than digits, and to be of a wrong length if
and only if it has another even number of digits than forty. Every address is read back from its hex
form and from its document. -/
theorem Address.ofHex_accepts_forty_digits (s : String) :
    (∀ d, Hex.IsBody s d ↔ d = Hex.digits s) ∧
    ((∃ a, ofHex s = .ok a) ↔
      (Hex.digits s).length = 40 ∧ ∀ c ∈ Hex.digits s, Hex.IsDigit c) ∧
    (∀ a, ofHex s = .ok a → decodeHex s = .ok a.bytes) ∧
    ((∃ reason, ofHex s = .error (.invalidHex reason)) ↔
      (Bytes.ofChars (Hex.digits s)).length % 2 = 1 ∨ ∃ c ∈ Hex.digits s, ¬Hex.IsDigit c) ∧
    (∀ expected actual, ofHex s = .error (.invalidLength expected actual) ↔
      expected = 20 ∧ actual = (Hex.digits s).length / 2 ∧
        ((Hex.digits s).length % 2 = 0 ∧ ∀ c ∈ Hex.digits s, Hex.IsDigit c) ∧
        (Hex.digits s).length ≠ 40) ∧
    ∀ a : Address, ofHex a.toHex = .ok a ∧
      Json.decode Address.decoder (Json.Print.document a.print) = .ok a :=
  ⟨fun _ => Hex.isBody_iff, exists_ofHex_iff, fun _ => decodeHex_of_ofHex,
    exists_invalidHex_iff.trans Hex.not_isPaired_iff, fun _ _ => ofHex_eq_invalidLength_iff,
    fun a => ⟨ofHex_toHex a, a.reads_print.decode⟩⟩

/-- Thirty-nine digits are decoded to twenty bytes and are no address, and neither are thirty-eight.
Blanks around forty digits of both cases are passed over. -/
theorem Address.ofHex_accepts_forty_digits_spaced :
    (∃ bs, decodeHex "0x5d48c1018904a172886829bbbd9c6f4a2d06c47" = .ok bs ∧
      bs.length = addressSize ∧
      ∃ reason, ofHex "0x5d48c1018904a172886829bbbd9c6f4a2d06c47" =
        .error (.invalidHex reason)) ∧
    ofHex "5d48c1018904a172886829bbbd9c6f4a2d06c4" = .error (.invalidLength 20 19) ∧
    ∃ a, ofHex " 0X5D48c1018904a172886829bbbd9c6f4a2d06c47B\n" = .ok a ∧
      decodeHex " 0X5D48c1018904a172886829bbbd9c6f4a2d06c47B\n" = .ok a.bytes := by
  have hodd : (Hex.digits "0x5d48c1018904a172886829bbbd9c6f4a2d06c47").length = 39 ∧
      (Hex.digits "0x5d48c1018904a172886829bbbd9c6f4a2d06c47").all (Hex.IsDigit ·) = true := by
    decide +kernel
  have hshort : (Hex.digits "5d48c1018904a172886829bbbd9c6f4a2d06c4").length = 38 ∧
      (Hex.digits "5d48c1018904a172886829bbbd9c6f4a2d06c4").all (Hex.IsDigit ·) = true := by
    decide +kernel
  have hforty : (Hex.digits " 0X5D48c1018904a172886829bbbd9c6f4a2d06c47B\n").length = 40 ∧
      (Hex.digits " 0X5D48c1018904a172886829bbbd9c6f4a2d06c47B\n").all (Hex.IsDigit ·) = true := by
    decide +kernel
  refine ⟨?_, ?_, ?_⟩
  · obtain ⟨-, -, -, hrefused, -⟩ :=
      ofHex_accepts_forty_digits "0x5d48c1018904a172886829bbbd9c6f4a2d06c47"
    have hdigits := Hex.forall_isDigit hodd.2
    obtain ⟨bs, hbs⟩ := exists_decodeHex_iff.mpr hdigits
    refine ⟨bs, hbs, ?_, hrefused.mpr (.inl ?_)⟩
    · rw [Hex.length_decode (decodeHex_eq_ok_iff.mp hbs), hodd.1]
      rfl
    · rw [Hex.length_ofChars_digits hdigits, hodd.1]
  · obtain ⟨-, -, -, -, hlength, -⟩ :=
      ofHex_accepts_forty_digits "5d48c1018904a172886829bbbd9c6f4a2d06c4"
    refine (hlength 20 19).mpr ⟨rfl, ?_, ⟨?_, Hex.forall_isDigit hshort.2⟩, ?_⟩
    · rw [hshort.1]
    · rw [hshort.1]
    · rw [hshort.1]
      decide
  · obtain ⟨-, haccepted, hdecoded, -⟩ :=
      ofHex_accepts_forty_digits " 0X5D48c1018904a172886829bbbd9c6f4a2d06c47B\n"
    obtain ⟨a, ha⟩ := haccepted.mpr ⟨hforty.1, Hex.forall_isDigit hforty.2⟩
    exact ⟨a, ha, hdecoded a ha⟩

end OpcodeConformance
