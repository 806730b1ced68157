import Mathlib.Data.List.Basic
import Mathlib.Tactic.Common
import Rowbase.Json.Reader

/-! # JSON that is read again

What is written is read back: texts with all their escapes, integers, words, and trees of any depth. -/
namespace Rowbase.Json

variable {b letter : UInt8} {rest : List UInt8}

/-! ## Texts -/

/-- The piece that a byte of a text is read as. A control character that has no letter is written as a code unit. -/
def pieceOf (b : UInt8) : Piece :=
  match shortEscapes.lookup b with
  | some _ => .byte b
  | none => if b < 0x20 then .unit b.toNat else .byte b

theorem readPieces_letter (h : (b, letter) ∈ shortEscapes) (rest : List UInt8) :
    readPieces (backslash :: letter :: rest) = (readPieces rest).map fun p => (.byte b :: p.1, p.2) := by
  simp only [shortEscapes, List.mem_cons, List.not_mem_nil, or_false, Prod.mk.injEq] at h
  rcases h with ⟨rfl, rfl⟩ | ⟨rfl, rfl⟩ | ⟨rfl, rfl⟩ | ⟨rfl, rfl⟩ | ⟨rfl, rfl⟩ | ⟨rfl, rfl⟩ | ⟨rfl, rfl⟩ <;>
  · rw [readPieces]
    · cases readPieces rest <;> rfl
    · exact fun _ _ _ _ _ hu _ => absurd hu (by decide)

theorem hexValue?_hexDigit {d : UInt8} (h : d.toNat < 16) : hexValue? (hexDigit d) = some d.toNat := by
  have hall : ∀ n < 16, hexValue? (hexDigit (UInt8.ofNat n)) = some n := by decide
  have hd := hall d.toNat h
  rwa [UInt8.ofNat_toNat] at hd

theorem readPieces_control (h : b < 0x20) (rest : List UInt8) :
    readPieces (backslash :: 0x75 :: 0x30 :: 0x30 :: hexDigit (b / 16) :: hexDigit (b % 16) :: rest) =
      (readPieces rest).map fun p => (.unit b.toNat :: p.1, p.2) := by
  have hb : b.toNat < 32 := UInt8.lt_iff_toNat_lt.1 h
  have hdiv : (b / 16).toNat = b.toNat / 16 := UInt8.toNat_div ..
  have hmod : (b % 16).toNat = b.toNat % 16 := UInt8.toNat_mod ..
  have hzero : hexValue? 0x30 = some 0 := rfl
  have hsum : b.toNat / 16 * 16 + b.toNat % 16 = b.toNat := by omega
  rw [readPieces, hexValue?_hexDigit (by omega), hexValue?_hexDigit (by omega), hzero, hdiv, hmod]
  simp only [bind, Option.bind, Nat.zero_mul, Nat.add_zero, Nat.zero_add, hsum]
  cases readPieces rest <;> rfl

theorem readPieces_plain (hquote : b ≠ quote) (hslash : b ≠ backslash) (h : ¬ b < 0x20) (rest : List UInt8) :
    readPieces (b :: rest) = (readPieces rest).map fun p => (.byte b :: p.1, p.2) := by
  rw [readPieces.eq_def]
  dsimp only
  rw [if_neg hquote, if_neg hslash, if_neg h]
  cases readPieces rest <;> rfl

theorem readPieces_escape (b : UInt8) (rest : List UInt8) : readPieces (escape b ++ rest) =
    (readPieces rest).map fun p => (pieceOf b :: p.1, p.2) := by
  rw [escape, pieceOf]
  cases hb : shortEscapes.lookup b with
  | some letter =>
    obtain ⟨before, behind, hm, -⟩ := List.lookup_eq_some_iff.1 hb
    exact readPieces_letter (by rw [hm]; simp) rest
  | none =>
    dsimp only
    split
    · rename_i h
      exact readPieces_control h rest
    · rename_i h
      -- a quote or a backslash would have had a letter
      refine readPieces_plain ?_ ?_ h rest <;> rintro rfl <;> cases hb

theorem charBytes_control : ∀ n < 32, charBytes n = [UInt8.ofNat n] := by decide +kernel

theorem joinPieces_pieceOf (bytes : List UInt8) : joinPieces (bytes.map pieceOf) = some bytes := by
  induction bytes with
  | nil => rfl
  | cons b bytes ih =>
    have hbyte : joinPieces (.byte b :: bytes.map pieceOf) = some (b :: bytes) := by
      rw [joinPieces, ih]
      rfl
    rw [List.map_cons, pieceOf]
    split
    · exact hbyte
    · split
      · rename_i h
        have hb : b.toNat < 32 := UInt8.lt_iff_toNat_lt.1 h
        rw [joinPieces.eq_def]
        dsimp only
        rw [if_pos (by omega), ih, charBytes_control _ hb, UInt8.ofNat_toNat]
        rfl
      · exact hbyte

theorem readPieces_flatMap (bytes rest : List UInt8) :
    readPieces (bytes.flatMap escape ++ quote :: rest) = some (bytes.map pieceOf, rest) := by
  induction bytes with
  | nil =>
    rw [List.flatMap_nil, List.nil_append, readPieces.eq_def]
    rfl
  | cons b bytes ih =>
    rw [List.flatMap_cons, List.append_assoc, readPieces_escape, ih]
    rfl

/-- A text is read back up to its closing quote. -/
theorem readText_put (s : String) (rest : List UInt8) :
    readText ((bytesOf s).flatMap escape ++ quote :: rest) = some (some s, rest) := by
  have hbytes : (bytesOf s).toByteArray = s.toUTF8 := ByteArray.ext List.data_toByteArray
  rw [readText, readPieces_flatMap]
  change some ((joinPieces ((bytesOf s).map pieceOf)).bind _, rest) = _
  rw [joinPieces_pieceOf]
  simp only [Option.bind_some, hbytes, Text.Utf8.decode_toUTF8]
  rfl

/-! ## Numbers -/

/-- Whether a value may end in front of these bytes. -/
def Ends (rest : List UInt8) : Prop := ∀ b ∈ rest.head?, b = comma ∨ b = closeBracket ∨ b = closeBrace

/-- The digits of a number as bytes. -/
def digitBytes (n : Nat) : List UInt8 := (Nat.toDigits 10 n).map fun c => c.val.toUInt8

theorem bytesOf_append (s t : String) : bytesOf (s ++ t) = bytesOf s ++ bytesOf t := by
  simp [bytesOf]

theorem toNat_of_isDigit {c : Char} (h : c.isDigit = true) : 48 ≤ c.val.toNat ∧ c.val.toNat ≤ 57 := by
  simp only [Char.isDigit, Bool.and_eq_true, decide_eq_true_eq, ge_iff_le, UInt32.le_iff_toNat_le] at h
  exact h

theorem toNat_toUInt8 {c : Char} (h : c.isDigit = true) : c.val.toUInt8.toNat = c.val.toNat := by
  have hc := toNat_of_isDigit h
  rw [UInt32.toNat_toUInt8]
  exact Nat.mod_eq_of_lt (by omega)

theorem isDigit_of_mem_toDigits {n : Nat} {c : Char} (h : c ∈ Nat.toDigits 10 n) : c.isDigit = true :=
  Nat.isDigit_of_mem_toDigits (by decide) (by decide) h

theorem utf8EncodeChar_of_isDigit {c : Char} (h : c.isDigit = true) :
    String.utf8EncodeChar c = [c.val.toUInt8] := by
  have hc := toNat_of_isDigit h
  refine String.utf8EncodeChar_eq_singleton (Char.utf8Size_eq_one_iff.2 ?_)
  rw [UInt32.le_iff_toNat_le]
  exact Nat.le_trans hc.2 (by decide)

theorem bytesOf_toString_nat (n : Nat) : bytesOf (toString n) = digitBytes n := by
  rw [Nat.toString_eq_ofList_toDigits, bytesOf, String.toUTF8, String.toByteArray_ofList, List.utf8Encode,
    List.data_toByteArray, digitBytes, List.map_eq_flatMap]
  exact List.flatMap_congr fun c hc => utf8EncodeChar_of_isDigit (isDigit_of_mem_toDigits hc)

theorem digitsValue_digitBytes (n : Nat) : digitsValue (digitBytes n) = n := by
  have hmap : ((digitBytes n).map fun b => Char.ofNat b.toNat) = Nat.toDigits 10 n := by
    rw [digitBytes, List.map_map]
    refine (List.map_congr_left fun c hc => ?_).trans (List.map_id _)
    rw [Function.comp, toNat_toUInt8 (isDigit_of_mem_toDigits hc)]
    exact Char.ofNat_toNat c
  rw [digitsValue, hmap, Nat.ofDigitChars_ten_toDigits]

theorem isDigit_of_mem_digitBytes {n : Nat} (h : b ∈ digitBytes n) : isDigit b = true := by
  obtain ⟨c, hc, rfl⟩ := List.mem_map.1 h
  have hc := isDigit_of_mem_toDigits hc
  rw [isDigit, Bool.and_eq_true, decide_eq_true_eq, decide_eq_true_eq, UInt8.le_iff_toNat_le, UInt8.le_iff_toNat_le,
    toNat_toUInt8 hc]
  exact toNat_of_isDigit hc

theorem head?_digitBytes {n : Nat} (hn : n ≠ 0) : (digitBytes n).head? ≠ some 0x30 := by
  induction n using Nat.strongRecOn with
  | ind n ih =>
    rw [digitBytes, Nat.toDigits_eq_if (by decide)]
    split
    · have hlow : ∀ k < 10, k ≠ 0 → (Nat.digitChar k).val.toUInt8 ≠ 0x30 := by decide
      simpa using hlow n (by assumption) hn
    · rename_i hlarge
      have hne : digitBytes (n / 10) ≠ [] := by simp [digitBytes, Nat.toDigits_ne_nil]
      have hfirst := ih (n / 10) (by omega) (by omega)
      rw [List.map_append]
      change (digitBytes (n / 10) ++ _).head? ≠ _
      rwa [List.head?_append_of_ne_nil _ hne]

/-- A number in digits has no zero in front but a lone one. -/
theorem digitBytes_canonical (n : Nat) : ((digitBytes n).head? == some 0x30 && (digitBytes n).length != 1) = false := by
  by_cases hn : n = 0
  · subst hn
    rfl
  · rw [beq_false_of_ne (head?_digitBytes hn), Bool.false_and]

theorem takeWhile_digits {digits : List UInt8} (h : ∀ b ∈ digits, isDigit b = true) (hrest : Ends rest) :
    (digits ++ rest).takeWhile isDigit = digits ∧ (digits ++ rest).dropWhile isDigit = rest := by
  have hstop : rest.takeWhile isDigit = [] ∧ rest.dropWhile isDigit = rest := by
    cases rest with
    | nil => exact ⟨rfl, rfl⟩
    | cons b rest =>
      rcases hrest b rfl with rfl | rfl | rfl <;> exact ⟨rfl, rfl⟩
  rw [List.takeWhile_append_of_pos h, List.dropWhile_append_of_pos h, hstop.1, hstop.2, List.append_nil]
  exact ⟨rfl, rfl⟩

theorem readDigits_digitBytes (n : Nat) (hrest : Ends rest) :
    readDigits (digitBytes n ++ rest) = some (digitBytes n, rest) := by
  obtain ⟨htake, hdrop⟩ := takeWhile_digits (fun b => isDigit_of_mem_digitBytes (n := n)) hrest
  have hne : digitBytes n ≠ [] := by simp [digitBytes, Nat.toDigits_ne_nil]
  rw [readDigits, htake, hdrop]
  cases hd : digitBytes n with
  | nil => exact absurd hd hne
  | cons b digits => rfl

theorem skip_of_ends (hrest : Ends rest) :
    skipFraction rest = some (false, rest) ∧ skipExponent rest = some (false, rest) := by
  cases rest with
  | nil => exact ⟨rfl, rfl⟩
  | cons b rest => rcases hrest b rfl with rfl | rfl | rfl <;> exact ⟨rfl, rfl⟩

theorem digitBytes_eq_cons (n : Nat) : ∃ b digits, digitBytes n = b :: digits ∧ isDigit b = true := by
  cases hd : digitBytes n with
  | nil => simp [digitBytes, Nat.toDigits_ne_nil] at hd
  | cons b digits => exact ⟨b, digits, rfl, isDigit_of_mem_digitBytes (hd ▸ List.mem_cons_self)⟩

/-- An integer is digits, or a minus before the digits of a number that is not zero. -/
theorem bytesOf_toString_int (n : Int) : (∃ m : Nat, n = m ∧ bytesOf (toString n) = digitBytes m) ∨
    ∃ m : Nat, m ≠ 0 ∧ n = -m ∧ bytesOf (toString n) = minus :: digitBytes m := by
  cases n with
  | ofNat m => exact .inl ⟨m, rfl, bytesOf_toString_nat m⟩
  | negSucc m =>
    refine .inr ⟨m + 1, Nat.succ_ne_zero m, rfl, ?_⟩
    rw [show toString (Int.negSucc m) = "-" ++ toString (m + 1) from rfl, bytesOf_append, bytesOf_toString_nat]
    rfl

/-- Digits are read as a number, with a minus before them as a negative one. -/
theorem readNumber_of_digits {bytes : List UInt8} (negative : Bool) {m : Nat}
    (hnegative : (bytes.head? == some minus) = negative)
    (hbytes : (if negative then bytes.tail else bytes) = digitBytes m ++ rest) (hm : negative = true → m ≠ 0)
    (hrest : Ends rest) : readNumber bytes = some (.integer (if negative then -m else m), rest) := by
  obtain ⟨hfraction, hexponent⟩ := skip_of_ends hrest
  have hzero : (negative && (m : Int) == 0) = false := by
    cases negative with
    | false => rfl
    | true => simpa using hm rfl
  rw [readNumber, hnegative, hbytes]
  simp only [readDigits_digitBytes m hrest, Option.bind_eq_bind, Option.bind_some, digitBytes_canonical,
    Bool.false_eq_true, if_false, hfraction, hexponent, Bool.or_self, Bool.false_or, digitsValue_digitBytes, hzero]
  rfl

/-- An integer is read back where a value may end behind it. -/
theorem readNumber_put (n : Int) (hrest : Ends rest) :
    readNumber (bytesOf (toString n) ++ rest) = some (.integer n, rest) := by
  rcases bytesOf_toString_int n with ⟨m, rfl, hbytes⟩ | ⟨m, hm, rfl, hbytes⟩
  · obtain ⟨b, digits, hd, hb⟩ := digitBytes_eq_cons m
    refine readNumber_of_digits false ?_ (by rw [hbytes]; rfl) (fun h => nomatch h) hrest
    rw [hbytes, hd]
    refine beq_false_of_ne fun he => ?_
    cases he
    cases hb
  · exact readNumber_of_digits true (by rw [hbytes]; rfl) (by rw [hbytes]; rfl) (fun _ => hm) hrest

/-! ## Trees -/

/-- Whether a value has nothing in it that is not kept of what is written: its texts are texts, and its numbers
integers. -/
inductive Plain : Json → Prop
  | null : Plain .null
  | boolean (b : Bool) : Plain (.boolean b)
  | integer (n : Int) : Plain (.integer n)
  | text (s : String) : Plain (.text (some s))
  | list {items : List Json} (h : ∀ item ∈ items, Plain item) : Plain (.list items)
  | object {fields : List (Option String × Json)} (hn : ∀ field ∈ fields, ∃ name, field.1 = some name)
    (h : ∀ field ∈ fields, Plain field.2) : Plain (.object fields)

theorem Plain.map {α : Type} {f : α → Json} {l : List α} (h : ∀ a ∈ l, (f a).Plain) : Plain (.list (l.map f)) := by
  refine .list fun item hm => ?_
  obtain ⟨a, ha, rfl⟩ := List.mem_map.1 hm
  exact h a ha

theorem Plain.named (fields : List (String × Json)) (h : ∀ field ∈ fields, field.2.Plain) :
    Plain (.object (fields.map fun field => (some field.1, field.2))) := by
  refine .object (fun field hm => ?_) fun field hm => ?_ <;> obtain ⟨field, hf, rfl⟩ := List.mem_map.1 hm
  · exact ⟨field.1, rfl⟩
  · exact h field hf

theorem putItems_cons {items : List Json} (h : items ≠ []) (rest : List UInt8) (item : Json) :
    putItems rest (item :: items) = item.put (comma :: putItems rest items) := by
  rw [putItems]
  exact h

theorem putFields_cons {fields : List (Option String × Json)} (h : fields ≠ []) (rest : List UInt8)
    (name : Option String) (value : Json) : putFields rest ((name, value) :: fields) =
      putText (name.getD "") (colon :: value.put (comma :: putFields rest fields)) := by
  rw [putFields]
  exact h

theorem length_putText (s : String) (rest : List UInt8) :
    (putText s rest).length = ((bytesOf s).flatMap escape).length + 2 + rest.length := by
  simp [putText]
  omega

mutual

theorem length_put (rest : List UInt8) : ∀ j : Json, (j.put rest).length = (j.put []).length + rest.length
  | .null | .boolean b | .integer n | .number => by simp [put]
  | .text s => by
    rw [put, put, length_putText, length_putText]
    rfl
  | .list items => by
    have hitems := length_putItems (closeBracket :: rest) items
    have hitems' := length_putItems [closeBracket] items
    rw [List.length_cons] at hitems hitems'
    rw [put, put, List.length_cons, List.length_cons, hitems, hitems', List.length_nil]
    omega
  | .object fields => by
    have hfields := length_putFields (closeBrace :: rest) fields
    have hfields' := length_putFields [closeBrace] fields
    rw [List.length_cons] at hfields hfields'
    rw [put, put, List.length_cons, List.length_cons, hfields, hfields', List.length_nil]
    omega

theorem length_putItems (rest : List UInt8) :
    ∀ items : List Json, (putItems rest items).length = (putItems [] items).length + rest.length
  | [] => by simp [putItems]
  | [item] => by rw [putItems, putItems, length_put rest item]
  | item :: item' :: items => by
    have hne : item' :: items ≠ [] := List.cons_ne_nil _ _
    have hitems := length_putItems rest (item' :: items)
    rw [putItems_cons hne, putItems_cons hne, length_put _ item, length_put (comma :: putItems [] _) item,
      List.length_cons, List.length_cons, hitems]
    omega

theorem length_putFields (rest : List UInt8) :
    ∀ fields : List (Option String × Json), (putFields rest fields).length = (putFields [] fields).length + rest.length
  | [] => by simp [putFields]
  | [(name, value)] => by
    rw [putFields, putFields, length_putText, length_putText, List.length_cons, List.length_cons, length_put rest value]
    omega
  | (name, value) :: field :: fields => by
    have hne : field :: fields ≠ [] := List.cons_ne_nil _ _
    have hfields := length_putFields rest (field :: fields)
    rw [putFields_cons hne, putFields_cons hne, length_putText, length_putText, List.length_cons, List.length_cons,
      length_put _ value, length_put (comma :: putFields [] _) value, List.length_cons, List.length_cons, hfields]
    omega

end

/-! ## Reading trees -/

theorem ends_cons (h : b = comma ∨ b = closeBracket ∨ b = closeBrace) (rest : List UInt8) : Ends (b :: rest) := by
  intro b' hb'
  cases hb'
  exact h

theorem skipBlanks_cons (h : isBlank b = false) (rest : List UInt8) : skipBlanks (b :: rest) = b :: rest :=
  List.dropWhile_cons_of_neg (by rw [h]; exact Bool.false_ne_true)

theorem isBlank_of_isDigit (h : isDigit b = true) : isBlank b = false := by
  simp only [isBlank, Bool.or_eq_false_iff, beq_eq_false_iff_ne]
  refine ⟨⟨⟨?_, ?_⟩, ?_⟩, ?_⟩ <;> rintro rfl <;> cases h

/-- What is written of a value starts with a byte that is neither a blank nor a closing bracket. -/
theorem put_starts {j : Json} (hp : j.Plain) (rest : List UInt8) :
    ∃ b bytes, j.put rest = b :: bytes ∧ isBlank b = false ∧ b ≠ closeBracket := by
  cases hp with
  | null => exact ⟨_, _, rfl, by decide, by decide⟩
  | boolean b => cases b <;> exact ⟨_, _, rfl, by decide, by decide⟩
  | integer n =>
    rw [put]
    rcases bytesOf_toString_int n with ⟨m, rfl, hbytes⟩ | ⟨m, hm, rfl, hbytes⟩
    · obtain ⟨b, digits, hd, hb⟩ := digitBytes_eq_cons m
      refine ⟨b, digits ++ rest, by rw [hbytes, hd]; rfl, isBlank_of_isDigit hb, ?_⟩
      rintro rfl
      cases hb
    · exact ⟨minus, digitBytes m ++ rest, by rw [hbytes]; rfl, by decide, by decide⟩
  | text s => exact ⟨_, _, rfl, by decide, by decide⟩
  | list h => exact ⟨_, _, rfl, by decide, by decide⟩
  | object hn h => exact ⟨_, _, rfl, by decide, by decide⟩

theorem putItems_starts {item : Json} (hp : item.Plain) (items : List Json) (rest : List UInt8) :
    ∃ b bytes, putItems rest (item :: items) = b :: bytes ∧ isBlank b = false ∧ b ≠ closeBracket := by
  cases items with
  | nil => exact put_starts hp rest
  | cons item' items =>
    rw [putItems_cons (List.cons_ne_nil _ _)]
    exact put_starts hp _

theorem putFields_starts (field : Option String × Json) (fields : List (Option String × Json)) (rest : List UInt8) :
    ∃ bytes, putFields rest (field :: fields) = quote :: bytes := by
  cases fields with
  | nil => exact ⟨_, rfl⟩
  | cons field' fields => exact ⟨_, rfl⟩

/-- Whether a value is read back wherever it may end, given as many calls as it has bytes, twice. -/
def Returns (j : Json) : Prop :=
  ∀ fuel rest, Ends rest → 2 * (j.put []).length ≤ fuel → readValue fuel (j.put rest) = some (j, rest)

theorem exists_fuel {j : Json} {fuel : Nat} (hp : j.Plain) (h : 2 * (j.put []).length ≤ fuel) : ∃ f, fuel = f + 1 := by
  obtain ⟨b, bytes, hput, -⟩ := put_starts hp []
  rw [hput, List.length_cons] at h
  exact ⟨fuel - 1, by omega⟩

theorem readValue_number {fuel : Nat} (h : b = minus ∨ isDigit b = true) (rest : List UInt8) :
    readValue (fuel + 1) (b :: rest) = readNumber (b :: rest) := by
  have hblank : isBlank b = false := by
    rcases h with rfl | h
    · rfl
    · exact isBlank_of_isDigit h
  have hne : ∀ c, c ≠ minus → isDigit c = false → b ≠ c := by
    rintro c hc hd rfl
    rcases h with h | h
    · exact hc h
    · rw [hd] at h
      cases h
  rw [readValue, skipBlanks_cons hblank]
  dsimp only
  rw [if_neg (hne _ (by decide) (by decide)), if_neg (hne _ (by decide) (by decide)),
    if_neg (hne _ (by decide) (by decide)), if_neg (hne _ (by decide) (by decide)),
    if_neg (hne _ (by decide) (by decide)), if_neg (hne _ (by decide) (by decide))]

theorem readValue_integer (n : Int) (hrest : Ends rest) (fuel : Nat) :
    readValue (fuel + 1) (put rest (.integer n)) = some (.integer n, rest) := by
  have hread := readNumber_put n hrest
  have hstart : ∃ b bytes, bytesOf (toString n) ++ rest = b :: bytes ∧ (b = minus ∨ isDigit b = true) := by
    rcases bytesOf_toString_int n with ⟨m, rfl, hbytes⟩ | ⟨m, hm, rfl, hbytes⟩
    · obtain ⟨b, digits, hd, hb⟩ := digitBytes_eq_cons m
      exact ⟨b, digits ++ rest, by rw [hbytes, hd]; rfl, .inr hb⟩
    · exact ⟨minus, digitBytes m ++ rest, by rw [hbytes]; rfl, .inl rfl⟩
  obtain ⟨b, bytes, hbytes, hb⟩ := hstart
  rw [put, hbytes, readValue_number hb, ← hbytes, hread]

theorem readValue_text (s : String) (rest : List UInt8) (fuel : Nat) :
    readValue (fuel + 1) (put rest (.text (some s))) = some (.text (some s), rest) := by
  change readValue (fuel + 1) (quote :: ((bytesOf s).flatMap escape ++ quote :: rest)) = _
  rw [readValue, skipBlanks_cons (by decide)]
  change (readText ((bytesOf s).flatMap escape ++ quote :: rest)).map _ = _
  rw [readText_put]
  rfl

/-- Items are read back up to the closing bracket. -/
theorem readItems_put {items : List Json} (hne : items ≠ []) (h : ∀ item ∈ items, Returns item) :
    ∀ fuel rest, 2 * (putItems [] items).length + 1 ≤ fuel →
      readItems fuel (putItems (closeBracket :: rest) items) = some (items, rest) := by
  induction items with
  | nil => exact absurd rfl hne
  | cons item items ih =>
    intro fuel rest hfuel
    obtain ⟨fuel, rfl⟩ : ∃ f, fuel = f + 1 := ⟨fuel - 1, by omega⟩
    by_cases hlast : items = []
    · subst hlast
      rw [putItems] at hfuel
      rw [putItems, readItems, h item (.head _) fuel _ (ends_cons (.inr (.inl rfl)) rest) (by omega)]
      rfl
    · have hitems := ih hlast (fun item hm => h item (.tail _ hm)) fuel rest
      rw [putItems_cons hlast, length_put, List.length_cons] at hfuel
      rw [putItems_cons hlast, readItems, h item (.head _) fuel _ (ends_cons (.inl rfl) _) (by omega)]
      change (readItems fuel (putItems (closeBracket :: rest) items) >>= fun p => some (item :: p.1, p.2)) = _
      rw [hitems (by omega)]
      rfl

/-- A name and the value behind it are read before what follows them is looked at. -/
theorem readFields_put {value : Json} (h : Returns value) (name : String) {fuel : Nat} (hrest : Ends rest)
    (hfuel : 2 * (value.put []).length ≤ fuel) :
    readFields (fuel + 1) (putText name (colon :: value.put rest)) = match skipBlanks rest with
      | [] => none
      | b :: rest =>
        if b = closeBrace then some ([(some name, value)], rest)
        else if b = comma then (readFields fuel rest).map fun p => ((some name, value) :: p.1, p.2)
        else none := by
  rw [putText, readFields, skipBlanks_cons (by decide)]
  dsimp only
  rw [if_neg (by decide), readText_put]
  simp only [Option.bind_eq_bind, Option.bind_some, skipBlanks_cons (show isBlank colon = false by decide)]
  rw [if_neg (by decide), h fuel rest hrest hfuel]
  simp only [Option.bind_some]
  cases skipBlanks rest with
  | nil => rfl
  | cons b rest =>
    refine if_congr Iff.rfl rfl (if_congr Iff.rfl ?_ rfl)
    cases readFields fuel rest <;> rfl

theorem readFields_putFields {fields : List (Option String × Json)} (hne : fields ≠ [])
    (hn : ∀ field ∈ fields, ∃ name, field.1 = some name) (h : ∀ field ∈ fields, Returns field.2) :
    ∀ fuel rest, 2 * (putFields [] fields).length + 1 ≤ fuel →
      readFields fuel (putFields (closeBrace :: rest) fields) = some (fields, rest) := by
  induction fields with
  | nil => exact absurd rfl hne
  | cons field fields ih =>
    intro fuel rest hfuel
    obtain ⟨fuel, rfl⟩ : ∃ f, fuel = f + 1 := ⟨fuel - 1, by omega⟩
    obtain ⟨name, value⟩ := field
    obtain ⟨name, rfl⟩ := hn _ (.head _)
    have hvalue : Returns value := h _ (.head _)
    by_cases hlast : fields = []
    · subst hlast
      rw [putFields, length_putText, List.length_cons] at hfuel
      rw [putFields]
      exact readFields_put hvalue name (ends_cons (.inr (.inr rfl)) rest) (by omega)
    · have hfields := ih hlast (fun field hm => hn field (.tail _ hm)) (fun field hm => h field (.tail _ hm)) fuel rest
      rw [putFields_cons hlast, length_putText, List.length_cons, length_put, List.length_cons] at hfuel
      rw [putFields_cons hlast]
      refine (readFields_put hvalue name (ends_cons (.inl rfl) _) (by omega)).trans ?_
      change (readFields fuel (putFields (closeBrace :: rest) fields)).map _ = _
      rw [hfields (by omega)]
      rfl

/-- Every value that loses nothing is read back. By induction on its parts: lists and objects are read item by item,
each with the calls that are left. -/
theorem returns_of_plain {j : Json} (hp : j.Plain) : Returns j := by
  induction hp with
  | null =>
    intro fuel rest _ hfuel
    obtain ⟨fuel, rfl⟩ := exists_fuel .null hfuel
    rfl
  | boolean b =>
    intro fuel rest _ hfuel
    obtain ⟨fuel, rfl⟩ := exists_fuel (.boolean b) hfuel
    cases b <;> rfl
  | integer n =>
    intro fuel rest hrest hfuel
    obtain ⟨fuel, rfl⟩ := exists_fuel (.integer n) hfuel
    exact readValue_integer n hrest fuel
  | text s =>
    intro fuel rest _ hfuel
    obtain ⟨fuel, rfl⟩ := exists_fuel (.text s) hfuel
    exact readValue_text s rest fuel
  | @list items hp ih =>
    intro fuel rest _ hfuel
    obtain ⟨fuel, rfl⟩ := exists_fuel (.list hp) hfuel
    rw [put, List.length_cons, length_putItems, List.length_cons] at hfuel
    rw [put, readValue, skipBlanks_cons (by decide)]
    dsimp only
    rw [if_pos rfl]
    cases items with
    | nil => rfl
    | cons item items =>
      obtain ⟨b, bytes, hput, hblank, hclose⟩ := putItems_starts (hp item (.head _)) items (closeBracket :: rest)
      rw [hput, skipBlanks_cons hblank]
      dsimp only
      rw [if_neg hclose, ← hput, readItems_put (List.cons_ne_nil _ _) ih fuel rest (by omega)]
      rfl
  | @object fields hn hp ih =>
    intro fuel rest _ hfuel
    obtain ⟨fuel, rfl⟩ := exists_fuel (.object hn hp) hfuel
    rw [put, List.length_cons, length_putFields, List.length_cons] at hfuel
    rw [put, readValue, skipBlanks_cons (by decide)]
    dsimp only
    rw [if_neg (by decide), if_pos rfl]
    cases fields with
    | nil => rfl
    | cons field fields =>
      obtain ⟨bytes, hput⟩ := putFields_starts field fields (closeBrace :: rest)
      rw [hput, skipBlanks_cons (by decide)]
      dsimp only
      rw [if_neg (by decide), ← hput, readFields_putFields (List.cons_ne_nil _ _) hn ih fuel rest (by omega)]
      rfl

/-- What is written of a value that loses nothing is read as the value. -/
theorem read_write {j : Json} (hp : j.Plain) : read j.write = some j := by
  have hlist : j.write.data.toList = j.put [] := by rw [write, List.data_toByteArray]
  have hread := returns_of_plain hp (2 * (j.put []).length + 1) [] (fun _ hb => nomatch hb) (Nat.le_succ _)
  rw [read, hlist]
  dsimp only
  rw [hread]
  rfl

end Rowbase.Json
