import OpcodeConformance.Address.Json
import OpcodeConformance.Json.Record
import OpcodeConformance.Proofs.Hex

namespace OpcodeConformance.Json

/-- What stands behind a value in an object: nothing, a comma, or the end of the object. -/
def IsBoundary (rest : Bytes) : Prop := ∀ b ∈ rest.head?, b = 44 ∨ b = 125

/-- The decoder reads a value from its text and leaves what stands behind it. -/
def Reads {α : Type} (d : Decoder α) (cs : List Char) (x : α) : Prop :=
  ∀ rest, IsBoundary rest → d (Bytes.ofChars cs ++ rest) = .ok (x, rest)

variable {α β : Type} {d : Decoder α} {cs : List Char} {x : α}

theorem Reads.map (h : Reads d cs x) (f : α → β) : Reads (d.map f) cs (f x) := by
  intro rest hrest
  rw [Decoder.map, h rest hrest]
  rfl

theorem Reads.refine (h : Reads d cs x) {f : α → Except String β} {y : β} (hf : f x = .ok y) :
    Reads (d.refine f) cs y := by
  intro rest hrest
  simp only [Decoder.refine, h rest hrest, bind, Except.bind, hf]

theorem isBlank_of_isDigit (b : UInt8) : Number.isDigit b = true → isBlank b = false := by
  revert b
  apply Bytes.forall_byte
  decide +kernel

theorem skipBlanks_cons {b : UInt8} (h : isBlank b = false) (bs : Bytes) :
    skipBlanks (b :: bs) = b :: bs := by
  rw [skipBlanks, List.dropWhile_cons, h, if_neg Bool.false_ne_true]

/-- A character that a text is written with as it is. -/
def IsPlain (c : Char) : Prop := 32 ≤ c.toNat ∧ c.toNat < 128 ∧ c ≠ '"' ∧ c ≠ '\\'

instance (c : Char) : Decidable (IsPlain c) := inferInstanceAs (Decidable (_ ∧ _))

theorem isPlain_of_all {cs : List Char} (h : cs.all (IsPlain ·) = true) {c : Char} (hc : c ∈ cs) :
    IsPlain c := of_decide_eq_true (List.all_eq_true.mp h c hc)

theorem escape_of_isPlain {c : Char} (h : IsPlain c) : escape c = [c] := by
  obtain ⟨hge, -, hquote, hslash⟩ := h
  have hne {d : Char} (hd : d.toNat < 32) : c ≠ d := by
    rintro rfl
    omega
  rw [escape, if_neg (by simp [hquote, hslash]), if_neg (hne (by decide)), if_neg (hne (by decide)),
    if_neg (hne (by decide)), if_neg (by omega), if_neg (by omega), if_neg (by omega)]

theorem byte_of_isPlain {c : Char} (h : IsPlain c) :
    UInt8.ofNat c.toNat ≠ 34 ∧ ¬UInt8.ofNat c.toNat < 32 ∧ UInt8.ofNat c.toNat ≠ 92 := by
  have hlt := h.2.1
  revert h
  apply Bytes.forall_ascii _ hlt
  decide +kernel

theorem content_quote (rest : Bytes) : Text.content (34 :: rest) = .ok ([], rest) := by
  rw [Text.content.eq_def]
  rfl

theorem content_cons {b : UInt8} (hquote : b ≠ 34) (hlow : ¬b < 32) (hslash : b ≠ 92)
    (rest : Bytes) : Text.content (b :: rest) = Text.prepend [b] (Text.content rest) := by
  rw [Text.content.eq_def]
  simp only [hquote, hlow, hslash, if_false, ne_eq, not_false_iff, if_true]

theorem content_of_isPlain {cs : List Char} (h : ∀ c ∈ cs, IsPlain c) (rest : Bytes) :
    Text.content (Bytes.ofChars cs ++ 34 :: rest) = .ok (Bytes.ofChars cs, rest) := by
  induction cs with
  | nil => exact content_quote rest
  | cons c cs ih =>
    obtain ⟨hquote, hlow, hslash⟩ := byte_of_isPlain (h c (.head _))
    rw [Bytes.ofChars_cons, Bytes.utf8EncodeChar_of_lt (h c (.head _)).2.1, List.append_assoc,
      List.singleton_append, content_cons hquote hlow hslash, ih fun d hd => h d (.tail _ hd)]
    rfl

theorem flatMap_escape {cs : List Char} (h : ∀ c ∈ cs, IsPlain c) : cs.flatMap escape = cs := by
  induction cs with
  | nil => rfl
  | cons c cs ih =>
    rw [List.flatMap_cons, escape_of_isPlain (h c (.head _)), ih fun d hd => h d (.tail _ hd)]
    rfl

theorem ofChars_text {s : String} (h : ∀ c ∈ s.toList, IsPlain c) :
    Bytes.ofChars (Print.text s) = 34 :: (Bytes.ofChars s.toList ++ [34]) := by
  rw [Print.text, flatMap_escape h, Bytes.ofChars_cons, Bytes.ofChars_append]
  rfl

theorem read_text {s : String} (h : ∀ c ∈ s.toList, IsPlain c) (rest : Bytes) :
    Text.read (Bytes.ofChars s.toList ++ 34 :: rest) = .ok (s, rest) := by
  simp only [Text.read, content_of_isPlain h, bind, Except.bind, Bytes.text?_ofChars,
    String.ofList_toList]

theorem reads_text {s : String} (h : ∀ c ∈ s.toList, IsPlain c) : Reads text (Print.text s) s := by
  intro rest _
  rw [ofChars_text h, List.cons_append, List.append_assoc, List.singleton_append, text,
    skipBlanks_cons (by decide)]
  exact read_text h rest

theorem head?_toDigits {n : Nat} (h : 0 < n) : (Nat.toDigits 10 n).head? ≠ some '0' := by
  induction n using Nat.strongRecOn with
  | ind n ih =>
    by_cases hlt : n < 10
    · rw [Nat.toDigits_of_lt_base hlt, List.head?_cons]
      intro hzero
      have hn := Nat.toNat_digitChar_sub_48_of_lt_ten hlt
      rw [Option.some.inj hzero] at hn
      exact Nat.ne_of_lt h hn
    · rw [Nat.toDigits_of_base_le (by decide) (Nat.le_of_not_lt hlt),
        List.head?_append_of_ne_nil _ Nat.toDigits_ne_nil]
      exact ih (n / 10) (by omega) (by omega)

namespace Number

theorem isDigit_ofNat {c : Char} (h : c.isDigit = true) :
    c.toNat < 128 ∧ isDigit (UInt8.ofNat c.toNat) = true := by
  have hlt : c.toNat < 128 := Nat.lt_of_le_of_lt (Char.isDigit_iff_toNat.mp h).2 (by decide)
  refine ⟨hlt, ?_⟩
  revert h
  apply Bytes.forall_ascii _ hlt
  decide +kernel

theorem digitRun_append {ds rest : Bytes} (atEnd : Problem) (hne : ds ≠ [])
    (hds : ∀ b ∈ ds, isDigit b = true) (hrest : ∀ b ∈ rest.head?, isDigit b = false) :
    digitRun atEnd (ds ++ rest) = .ok (ds, rest) := by
  have hnone : rest.takeWhile isDigit = [] ∧ rest.dropWhile isDigit = rest := by
    cases rest with
    | nil => exact ⟨rfl, rfl⟩
    | cons b bs =>
      have hb := hrest b rfl
      rw [List.takeWhile_cons, List.dropWhile_cons, hb]
      exact ⟨rfl, rfl⟩
  cases ds with
  | nil => exact absurd rfl hne
  | cons b bs =>
    have hbs : ∀ d ∈ bs, isDigit d = true := fun d hd => hds d (.tail _ hd)
    rw [List.cons_append, digitRun, if_pos (hds b (.head _)), List.takeWhile_append_of_pos hbs,
      List.dropWhile_append_of_pos hbs, hnone.1, hnone.2, List.append_nil]

theorem isDigit_of_isBoundary {rest : Bytes} (h : IsBoundary rest) :
    ∀ b ∈ rest.head?, isDigit b = false := by
  intro b hb
  obtain rfl | rfl := h b hb <;> rfl

theorem fractionPart_of_isBoundary {rest : Bytes} (atEnd : Problem) (h : IsBoundary rest) :
    fractionPart atEnd rest = .ok (none, rest) ∧ exponentPart atEnd rest = .ok (none, rest) := by
  cases rest with
  | nil => exact ⟨rfl, rfl⟩
  | cons b bs => obtain rfl | rfl := h b rfl <;> exact ⟨rfl, rfl⟩

/-- Digits without leading zeros are a number for themselves before a boundary. -/
theorem parts_append {ds rest : Bytes} (atEnd : Problem) (hne : ds ≠ [])
    (hds : ∀ b ∈ ds, isDigit b = true) (hzero : ¬(1 < ds.length ∧ ds.head? = some 48))
    (hrest : IsBoundary rest) :
    parts atEnd (ds ++ rest) = .ok (⟨false, ds, none, none⟩, rest) := by
  -- no digit is a minus sign
  have hhead : (ds ++ rest).head? ≠ some 45 := by
    rw [List.head?_append_of_ne_nil _ hne]
    intro h
    have h45 := hds 45 (List.mem_of_mem_head? h)
    revert h45
    decide
  have hwhole : wholePart atEnd (ds ++ rest) = .ok (ds, rest) := by
    rw [wholePart, digitRun_append atEnd hne hds (isDigit_of_isBoundary hrest)]
    exact if_neg hzero
  obtain ⟨hfraction, hexponent⟩ := fractionPart_of_isBoundary atEnd hrest
  simp only [parts, hhead, decide_false, if_false, hwhole, hfraction, hexponent, bind,
    Except.bind]
  rfl

theorem ofChars_digits (n : Nat) :
    Bytes.ofChars (Decimal.digits n) = (Nat.toDigits 10 n).map fun c => UInt8.ofNat c.toNat :=
  Bytes.ofChars_of_lt fun _ hc =>
    (isDigit_ofNat (Nat.isDigit_of_mem_toDigits (by decide) (by decide) hc)).1

theorem isDigit_of_mem_digits {n : Nat} {b : UInt8} (h : b ∈ Bytes.ofChars (Decimal.digits n)) :
    isDigit b = true := by
  rw [ofChars_digits] at h
  obtain ⟨c, hc, rfl⟩ := List.mem_map.mp h
  exact (isDigit_ofNat (Nat.isDigit_of_mem_toDigits (by decide) (by decide) hc)).2

theorem digits_ne_nil (n : Nat) : Bytes.ofChars (Decimal.digits n) ≠ [] := by
  rw [ofChars_digits]
  simp

theorem digits_no_leading_zero (n : Nat) :
    ¬(1 < (Bytes.ofChars (Decimal.digits n)).length ∧
      (Bytes.ofChars (Decimal.digits n)).head? = some 48) := by
  rw [ofChars_digits, List.length_map, List.head?_map]
  rintro ⟨hlength, hhead⟩
  have hge : ¬n < 10 ^ 1 := by
    rw [← Nat.length_toDigits_le_iff (by decide) (by decide)]
    omega
  obtain ⟨c, hc, hbyte⟩ := Option.map_eq_some_iff.mp hhead
  have hdigit : c.isDigit = true :=
    Nat.isDigit_of_mem_toDigits (by decide) (by decide) (List.mem_of_mem_head? hc)
  have hlt := (isDigit_ofNat hdigit).1
  have hzero : c = '0' := by
    have hnat := congrArg UInt8.toNat hbyte
    rw [UInt8.toNat_ofNat', Nat.mod_eq_of_lt (by omega)] at hnat
    rw [← Char.ofNat_toNat c, hnat]
    rfl
  rw [hzero] at hc
  exact head?_toDigits (by omega) hc

theorem value_digits (n : Nat) : value (Bytes.ofChars (Decimal.digits n)) = n := by
  have hfold (cs : List Char) (hcs : ∀ c ∈ cs, c.toNat < 128) (k : Nat) :
      (cs.map fun c => UInt8.ofNat c.toNat).foldl (fun n d => 10 * n + (d.toNat - 48)) k =
        Nat.ofDigitChars 10 cs k := by
    induction cs generalizing k with
    | nil => rfl
    | cons c cs ih =>
      have hc : (UInt8.ofNat c.toNat).toNat = c.toNat := by
        have := hcs c (.head _)
        rw [UInt8.toNat_ofNat', Nat.mod_eq_of_lt (by omega)]
      rw [List.map_cons, List.foldl_cons, ih fun d hd => hcs d (.tail _ hd),
        Nat.ofDigitChars_cons, hc]
      rfl
  rw [value, ofChars_digits, hfold _ fun c hc =>
    (isDigit_ofNat (Nat.isDigit_of_mem_toDigits (by decide) (by decide) hc)).1,
    Nat.ofDigitChars_ten_toDigits]

theorem read_digits {n : Nat} {rest : Bytes} (hn : n < UInt64.size) (hrest : IsBoundary rest) :
    read (Bytes.ofChars (Decimal.digits n) ++ rest) = .ok (.integer n, rest) := by
  have hnumber : (⟨false, Bytes.ofChars (Decimal.digits n), none, none⟩ : Parts).number? =
      some (.integer n) := by
    simp only [Parts.number?, value_digits]
    exact if_pos ⟨rfl, rfl, Bool.false_ne_true, hn⟩
  simp only [read, parts_append _ (digits_ne_nil n) (fun b hb => isDigit_of_mem_digits hb)
    (digits_no_leading_zero n) hrest, bind, Except.bind, hnumber]

end Number

theorem reads_number (n : UInt64) : Reads uint64 (Print.number n.toNat) n := by
  have hinteger : Reads (integerIn "u64" 0 (UInt64.size - 1)) (Print.number n.toNat) n.toNat := by
    intro rest hrest
    have hread := Number.read_digits n.toNat_lt_size hrest
    change integerIn _ _ _ (Bytes.ofChars (Decimal.digits n.toNat) ++ rest) = _
    cases hds : Bytes.ofChars (Decimal.digits n.toNat) with
    | nil => exact absurd hds (Number.digits_ne_nil _)
    | cons b bs =>
      have hb : Number.isDigit b = true :=
        Number.isDigit_of_mem_digits (by rw [hds]; exact .head _)
      rw [hds] at hread
      rw [List.cons_append] at hread ⊢
      have hrange : 0 ≤ (n.toNat : Int) ∧ (n.toNat : Int) ≤ UInt64.size - 1 := by
        have := n.toNat_lt_size
        omega
      simp only [integerIn, skipBlanks_cons (isBlank_of_isDigit b hb), Number.starts, hb,
        Bool.or_true, if_true, hread, hrange, and_self]
  have hvalue := hinteger.map fun n => UInt64.ofNat n.toNat
  rwa [Int.toNat_natCast, UInt64.ofNat_toNat] at hvalue

namespace Record

variable {σ : Type}

/-- A member of an object: a field, the text of its value, and what reading that does to a
record. -/
structure Member (σ : Type) where
  field : Field σ
  value : List Char
  set : σ → σ

namespace Member

def name (e : Member σ) : String := e.field.name

def print (e : Member σ) : List Char := Print.member (e.name, e.value)

structure IsReadBy (r : Record σ) (e : Member σ) : Prop where
  field : (r.fields.find? fun f => f.name = e.name) = some e.field
  value : Reads e.field.decode e.value e.set
  isPlain : ∀ c ∈ e.name.toList, IsPlain c

def ofField (name : String) (d : Decoder α) (set : α → σ → σ) (cs : List Char) (x : α) : Member σ :=
  ⟨Json.field name d set, cs, set x⟩

theorem isReadBy_ofField {r : Record σ} {name : String} {d : Decoder α} {set : α → σ → σ}
    {cs : List Char} {x : α}
    (hfield : (r.fields.find? fun f => f.name = name) = some (Json.field name d set))
    (hread : Reads d cs x) (hplain : name.toList.all (IsPlain ·) = true) :
    (ofField name d set cs x).IsReadBy r :=
  ⟨hfield, hread.map set, fun _ => isPlain_of_all hplain⟩

end Member

variable {r : Record σ} {e : Member σ} {es : List (Member σ)} {seen : List String} {x : σ}
  {fuel : Nat} {rest : Bytes}

def separator (first : Bool) : Bytes := if first then [] else [44]

theorem nextKey_quote (first : Bool) (bs : Bytes) :
    nextKey first (separator first ++ 34 :: bs) = .ok (.entry bs) := by
  cases first <;> rfl

/-- A member whose name is new is read into the record. -/
theorem fromMembers_member (first : Bool) (he : e.IsReadBy r) (hseen : seen.contains e.name = false)
    (hrest : IsBoundary rest) :
    fromMembers r (fuel + 1) first seen x (separator first ++ (Bytes.ofChars e.print ++ rest)) =
      fromMembers r fuel false (e.name :: seen) (e.set x) rest := by
  have hprint : Bytes.ofChars e.print ++ rest =
      34 :: (Bytes.ofChars e.name.toList ++ 34 :: 58 :: (Bytes.ofChars e.value ++ rest)) := by
    rw [Member.print, Print.member, Bytes.ofChars_append, ofChars_text he.isPlain,
      Bytes.ofChars_cons]
    simp
    rfl
  have hcolon (bs : Bytes) : colon (58 :: bs) = .ok bs := rfl
  rw [hprint, fromMembers, nextKey_quote]
  simp only [bind, Except.bind, read_text he.isPlain, he.field, hseen, hcolon, he.value rest hrest]
  rfl

/-- The end of an object without a required field that has not been read. -/
theorem fromMembers_closed (first : Bool)
    (hrequired : ∀ f ∈ r.fields, f.required = true → f.name ∈ seen) :
    fromMembers r (fuel + 1) first seen x (125 :: rest) = .ok (x, rest) := by
  have hnone : (r.fields.find? fun f => f.required && !seen.contains f.name) = none := by
    rw [List.find?_eq_none]
    intro f hf
    cases hr : f.required with
    | false => simp
    | true => simpa using hrequired f hf hr
  have hkey : nextKey first (125 :: rest) = .ok (.closed rest) := by cases first <;> rfl
  rw [fromMembers, hkey]
  simp only [bind, Except.bind, hnone]

def continued (es : List (Member σ)) : Bytes :=
  es.flatMap fun e => separator false ++ Bytes.ofChars e.print

theorem continued_cons (e : Member σ) (es : List (Member σ)) :
    continued (e :: es) = separator false ++ Bytes.ofChars e.print ++ continued es := rfl

theorem length_le_continued (es : List (Member σ)) : es.length ≤ (continued es).length := by
  induction es with
  | nil => exact Nat.le_refl 0
  | cons e es ih =>
    rw [continued_cons, List.length_append, List.length_append, List.length_cons]
    have hcomma : (separator false).length = 1 := rfl
    omega

theorem isBoundary_continued (es : List (Member σ)) (rest : Bytes) :
    IsBoundary (continued es ++ 125 :: rest) := by
  intro b hb
  cases es with
  | nil =>
    cases hb
    exact .inr rfl
  | cons e es =>
    cases hb
    exact .inl rfl

theorem fromMembers_continued (hread : ∀ e ∈ es, e.IsReadBy r)
    (hdistinct : (es.map Member.name ++ seen).Nodup) (hfuel : es.length < fuel)
    (hrequired : ∀ f ∈ r.fields, f.required = true → f.name ∈ es.map Member.name ++ seen) :
    fromMembers r fuel false seen x (continued es ++ 125 :: rest) =
      .ok (es.foldl (fun x e => e.set x) x, rest) := by
  induction es generalizing seen x fuel with
  | nil =>
    obtain ⟨k, rfl⟩ : ∃ k, fuel = k + 1 := ⟨fuel - 1, by omega⟩
    exact fromMembers_closed false hrequired
  | cons e es ih =>
    have hperm : (es.map Member.name ++ e.name :: seen).Perm
        ((e :: es).map Member.name ++ seen) := List.perm_middle
    have hseen : seen.contains e.name = false := by
      have hnotMem : e.name ∉ es.map Member.name ++ seen := (List.nodup_cons.mp hdistinct).1
      rw [List.mem_append, not_or] at hnotMem
      simpa using hnotMem.2
    rw [List.length_cons] at hfuel
    obtain ⟨k, rfl⟩ : ∃ k, fuel = k + 1 := ⟨fuel - 1, by omega⟩
    -- its name goes from the members ahead to the names seen
    rw [continued_cons, List.append_assoc, List.append_assoc,
      fromMembers_member false (hread e (.head _)) hseen (isBoundary_continued es rest)]
    exact ih (fun e' he' => hread e' (.tail _ he')) (hperm.nodup_iff.mpr hdistinct)
      (by omega) fun f hf hr => hperm.mem_iff.mpr (hrequired f hf hr)

theorem ofChars_separated (e : Member σ) (es : List (Member σ)) :
    Bytes.ofChars (Print.separated ((e :: es).map Member.print)) =
      Bytes.ofChars e.print ++ continued es := by
  induction es generalizing e with
  | nil => simp [Print.separated, continued]
  | cons e' es ih =>
    rw [List.map_cons, List.map_cons, Print.separated, Bytes.ofChars_append, Bytes.ofChars_cons,
      ← List.map_cons, ih, continued_cons, List.append_assoc]
    rfl

/-- A record is read back from the object with its members. -/
theorem reads_object (hread : ∀ e ∈ es, e.IsReadBy r) (hdistinct : (es.map Member.name).Nodup)
    (hrequired : ∀ f ∈ r.fields, f.required = true → f.name ∈ es.map Member.name) :
    Reads r.decoder (Print.object (es.map fun e => (e.name, e.value)))
      (es.foldl (fun x e => e.set x) r.initial) := by
  intro rest _
  have hprint : (es.map fun e => (e.name, e.value)).map Print.member = es.map Member.print := by
    rw [List.map_map]
    rfl
  have hobject (bs : Bytes) : r.decoder (123 :: bs) =
      fromMembers r (bs.length + 1) true [] r.initial bs := rfl
  have hbrace (cs : List Char) : Bytes.ofChars ('\x7b' :: (cs ++ ['\x7d'])) ++ rest =
      123 :: (Bytes.ofChars cs ++ 125 :: rest) := by
    rw [Bytes.ofChars_cons, Bytes.ofChars_append]
    simp
    rfl
  rw [Print.object, hprint, hbrace, hobject]
  cases es with
  | nil => exact fromMembers_closed true fun f hf hr => absurd (hrequired f hf hr) (by simp)
  | cons e es =>
    have hfuel : es.length <
        (Bytes.ofChars e.print ++ (continued es ++ 125 :: rest)).length := by
      have := length_le_continued es
      simp only [List.length_append, List.length_cons]
      omega
    -- no comma stands in front of the first member
    rw [ofChars_separated, List.append_assoc]
    change fromMembers r (_ + 1) true [] r.initial
      (separator true ++ (Bytes.ofChars e.print ++ (continued es ++ 125 :: rest))) = _
    rw [fromMembers_member true (hread e (.head _)) rfl (isBoundary_continued es rest)]
    refine fromMembers_continued (fun e' he' => hread e' (.tail _ he')) ?_ hfuel ?_
    · exact List.perm_middle.nodup_iff.mpr (by simpa using hdistinct)
    · exact fun f hf hr => List.perm_middle.mem_iff.mpr (by simpa using hrequired f hf hr)

end Record

theorem Reads.decode {α : Type} {d : Decoder α} {cs : List Char} {x : α} (h : Reads d cs x) :
    Json.decode d (Print.document cs) = .ok x := by
  have hread := h [] fun b hb => by cases hb
  rw [List.append_nil] at hread
  rw [Json.decode, Print.document, hread]
  rfl

end OpcodeConformance.Json

namespace OpcodeConformance

open Json

theorem Address.reads_print (a : Address) : Reads Address.decoder a.print a := by
  have hplain : Hex.alphabet.all (IsPlain ·) = true := by decide
  have htext : Reads text a.print a.toHex :=
    reads_text fun c hc => isPlain_of_all hplain (Hex.mem_alphabet_of_mem_encode hc)
  apply htext.refine
  rw [Address.ofHex_toHex]
  rfl

end OpcodeConformance
