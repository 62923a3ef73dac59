import Mathlib.Tactic.Common
import Enclosure.Text.Utf8

/-!
# Lossy decoding

Well-formed bytes in front are decoded to their text whatever comes after them
(`decodeLossy_encoded_append`), and a byte that continues nothing parts what is in front of it from what
begins there (`decodeLossy_append_cons`). So the decoding of a whole is that of its parts, as long as it is
cut behind whole characters or in front of such a byte.
-/

namespace Enclosure.Utf8

/-! ## Well-formed bytes -/

theorem announced_eq (a : UInt8) : announced a
    = if a.toNat < 0x80 then 1 else if 0xC2 ≤ a.toNat ∧ a.toNat ≤ 0xDF then 2
      else if 0xE0 ≤ a.toNat ∧ a.toNat ≤ 0xEF then 3
      else if 0xF0 ≤ a.toNat ∧ a.toNat ≤ 0xF4 then 4 else 0 := by
  simp only [announced, UInt8.lt_iff_toNat_lt, UInt8.le_iff_toNat_le, Bool.and_eq_true, decide_eq_true_eq]
  rfl

theorem announced_cases (a : UInt8) :
    announced a = 0 ∨ announced a = 1 ∨ announced a = 2 ∨ announced a = 3 ∨ announced a = 4 := by
  rw [announced_eq]
  split_ifs <;> simp

theorem isTail_iff (b : UInt8) : isTail b ↔ 0x80 ≤ b.toNat ∧ b.toNat ≤ 0xBF := by
  simp [isTail, UInt8.le_iff_toNat_le]

theorem secondOk_iff (a b : UInt8) : secondOk a b ↔ 0x80 ≤ b.toNat ∧ b.toNat ≤ 0xBF
    ∧ (a.toNat = 0xE0 → 0xA0 ≤ b.toNat) ∧ (a.toNat = 0xED → b.toNat ≤ 0x9F)
    ∧ (a.toNat = 0xF0 → 0x90 ≤ b.toNat) ∧ (a.toNat = 0xF4 → b.toNat ≤ 0x8F) := by
  simp only [secondOk, beq_iff_eq, ← UInt8.toNat_inj]
  split_ifs <;>
    simp only [isTail, UInt8.le_iff_toNat_le, Bool.and_eq_true, decide_eq_true_eq, UInt8.reduceToNat] at * <;>
    omega

theorem first_one {a : UInt8} (h : a.toNat < 0x80) (rest : List UInt8) :
    first a rest = .char (Char.ofNat a.toNat) 1 := by
  have announces : announced a = 1 := by simp [announced_eq, h]
  simp [first, announces]

theorem first_two {a b : UInt8} (ha : 0xC2 ≤ a.toNat) (ha' : a.toNat ≤ 0xDF) (hb : isTail b)
    (rest : List UInt8) :
    first a (b :: rest) = .char (Char.ofNat (a.toNat % 32 * 64 + low b)) 2 := by
  have announces : announced a = 2 := by
    rw [announced_eq, if_neg (by omega), if_pos ⟨ha, ha'⟩]
  simp [first, announces, hb]

theorem first_three {a b c : UInt8} (ha : 0xE0 ≤ a.toNat) (ha' : a.toNat ≤ 0xEF) (hb : secondOk a b)
    (hc : isTail c) (rest : List UInt8) :
    first a (b :: c :: rest) = .char (Char.ofNat ((a.toNat % 16 * 64 + low b) * 64 + low c)) 3 := by
  have announces : announced a = 3 := by
    rw [announced_eq, if_neg (by omega), if_neg (by omega), if_pos ⟨ha, ha'⟩]
  simp [first, announces, hb, hc]

theorem first_four {a b c d : UInt8} (ha : 0xF0 ≤ a.toNat) (ha' : a.toNat ≤ 0xF4) (hb : secondOk a b)
    (hc : isTail c) (hd : isTail d) (rest : List UInt8) : first a (b :: c :: d :: rest)
      = .char (Char.ofNat (((a.toNat % 8 * 64 + low b) * 64 + low c) * 64 + low d)) 4 := by
  have announces : announced a = 4 := by
    rw [announced_eq, if_neg (by omega), if_neg (by omega), if_neg (by omega), if_pos ⟨ha, ha'⟩]
  simp [first, announces, hb, hc, hd]

/-- The byte that carries the last six bits of a number. -/
def tail (n : Nat) : UInt8 := UInt8.ofNat (n % 64 + 128)

theorem toNat_tail (n : Nat) : (tail n).toNat = n % 64 + 128 := by
  rw [tail, UInt8.toNat_ofNat', Nat.mod_eq_of_lt (by omega)]

theorem isTail_tail (n : Nat) : isTail (tail n) := by
  rw [isTail_iff, toNat_tail]
  omega

theorem low_tail (n : Nat) : low (tail n) = n % 64 := by
  rw [low, toNat_tail]
  omega

theorem toNat_lead {n mark : Nat} (h : n + mark < 256) : (UInt8.ofNat (n + mark)).toNat = n + mark := by
  rw [UInt8.toNat_ofNat', Nat.mod_eq_of_lt h]

/-- The bytes of a character are read as that character. -/
theorem first_encoded (c : Char) (rest : List UInt8) : ∃ a more,
    String.utf8EncodeChar c = a :: more ∧ first a (more ++ rest) = .char c (more.length + 1) := by
  have hc : Char.ofNat c.val.toNat = c := Char.ofNat_toNat c
  have hvalid : c.val.toNat < 0xD800 ∨ 0xDFFF < c.val.toNat ∧ c.val.toNat < 0x110000 := c.valid
  unfold String.utf8EncodeChar
  generalize c.val.toNat = v at hc hvalid
  dsimp only
  -- one case a length; the bits spread over the bytes make up the number of the character again
  split_ifs with h₁ h₂ h₃
  all_goals refine ⟨_, _, rfl, ?_⟩
  · have ha : (UInt8.ofNat v).toNat = v := @toNat_lead v 0 (by omega)
    rw [first_one (by omega), ha, hc]
    rfl
  · have ha : (UInt8.ofNat (v / 64 % 32 + 192)).toNat = v / 64 + 192 := by
      rw [toNat_lead (by omega), Nat.mod_eq_of_lt (by omega)]
    refine (first_two (by omega) (by omega) (isTail_tail v) rest).trans ?_
    have hv : (v / 64 + 192) % 32 * 64 + v % 64 = v := by omega
    rw [ha, low_tail, hv, hc]
    rfl
  · have ha : (UInt8.ofNat (v / 4096 % 16 + 224)).toNat = v / 4096 + 224 := by
      rw [toNat_lead (by omega), Nat.mod_eq_of_lt (by omega)]
    have hb : secondOk (UInt8.ofNat (v / 4096 % 16 + 224)) (tail (v / 64)) := by
      rw [secondOk_iff, toNat_tail, ha]
      omega
    refine (first_three (by omega) (by omega) hb (isTail_tail v) rest).trans ?_
    have hv : ((v / 4096 + 224) % 16 * 64 + v / 64 % 64) * 64 + v % 64 = v := by omega
    rw [ha, low_tail, low_tail, hv, hc]
    rfl
  · have ha : (UInt8.ofNat (v / 262144 % 8 + 240)).toNat = v / 262144 + 240 := by
      rw [toNat_lead (by omega), Nat.mod_eq_of_lt (by omega)]
    have hb : secondOk (UInt8.ofNat (v / 262144 % 8 + 240)) (tail (v / 4096)) := by
      rw [secondOk_iff, toNat_tail, ha]
      omega
    refine (first_four (by omega) (by omega) hb (isTail_tail _) (isTail_tail v) rest).trans ?_
    have hv : (((v / 262144 + 240) % 8 * 64 + v / 4096 % 64) * 64 + v / 64 % 64) * 64 + v % 64 = v := by
      omega
    rw [ha, low_tail, low_tail, low_tail, hv, hc]
    rfl

/-! ## Where decoding can be cut -/

/-- The character that a sequence is decoded to. -/
def Sequence.shown : Sequence → Char
  | .char c _ => c
  | .bad .. => replacement

theorem decodeLossy_nil : decodeLossy [] = [] := by rw [decodeLossy]

theorem decodeLossy_cons (a : UInt8) (rest : List UInt8) : decodeLossy (a :: rest)
    = (first a rest).shown :: decodeLossy (rest.drop ((first a rest).length - 1)) := by
  rw [decodeLossy]
  rcases first a rest with ⟨c, n⟩ | ⟨n, cut⟩ <;> rfl

/-- Whole characters are decoded to themselves, whatever comes after them. -/
theorem decodeLossy_encoded_append (rest : List UInt8) : ∀ cs : List Char,
    decodeLossy (cs.flatMap String.utf8EncodeChar ++ rest) = cs ++ decodeLossy rest
  | [] => rfl
  | c :: cs => by
    obtain ⟨a, more, hbytes, hfirst⟩ := first_encoded c (cs.flatMap String.utf8EncodeChar ++ rest)
    rw [List.flatMap_cons, hbytes, List.append_assoc, List.cons_append, decodeLossy_cons, hfirst]
    simp [Sequence.shown, Sequence.length, decodeLossy_encoded_append rest cs]

/-- A byte that continues no sequence ends the one in front of it, as the end of the input does. -/
theorem first_append_cons {x : UInt8} (hx : isTail x = false) (a : UInt8) (rest more : List UInt8) :
    (first a (rest ++ x :: more)).shown = (first a rest).shown
      ∧ (first a (rest ++ x :: more)).length = (first a rest).length
      ∧ (first a rest).length - 1 ≤ rest.length := by
  have hsecond : secondOk a x = false := by
    rw [Bool.eq_false_iff, ne_eq, secondOk_iff]
    rw [Bool.eq_false_iff, ne_eq, isTail_iff] at hx
    exact fun h => hx ⟨h.1, h.2.1⟩
  -- Four bytes are all that is ever looked at, and `x` is looked at only where there are fewer.
  rcases rest with _ | ⟨b, _ | ⟨c, _ | ⟨d, rest⟩⟩⟩ <;>
    rcases announced_cases a with h | h | h | h | h <;>
    simp only [first, h, List.nil_append, List.cons_append, hx, hsecond] <;>
    (try split_ifs) <;> simp_all [Sequence.shown, Sequence.length]

/-- Decoding can be cut in front of a byte that continues no sequence. -/
theorem decodeLossy_append_cons {x : UInt8} (hx : isTail x = false) (more : List UInt8) :
    ∀ bs : List UInt8, decodeLossy (bs ++ x :: more) = decodeLossy bs ++ decodeLossy (x :: more)
  | [] => by rw [decodeLossy_nil, List.nil_append, List.nil_append]
  | a :: rest => by
    obtain ⟨shown, length, le⟩ := first_append_cons hx a rest more
    rw [List.cons_append, decodeLossy_cons a, decodeLossy_cons a, shown, length, List.drop_append_of_le_length le,
      decodeLossy_append_cons hx more (rest.drop _), List.cons_append]
termination_by bs => bs.length
decreasing_by simp only [List.length_drop, List.length_cons]; omega

theorem decodeLossy_ascii {x : UInt8} (hx : x.toNat < 0x80) (more : List UInt8) :
    decodeLossy (x :: more) = Char.ofNat x.toNat :: decodeLossy more := by
  rw [decodeLossy_cons, first_one hx]
  rfl

end Enclosure.Utf8

namespace Enclosure.Bytes

/-! ## Texts -/

theorem asList_append (a b : Bytes) : (a ++ b).asList = a.asList ++ b.asList := by
  simp [asList]

theorem asList_ofText (s : String) : (ofText s).asList = s.toList.flatMap String.utf8EncodeChar := by
  rw [ofText, asList, String.toUTF8, ← String.utf8Encode_toList]
  simp [List.utf8Encode]

theorem ofText_append (s t : String) : ofText (s ++ t) = ofText s ++ ofText t :=
  String.toByteArray_append

theorem textLossy_empty : textLossy .empty = "" := by
  simp [textLossy, asList, Utf8.decodeLossy_nil]

/-- Nothing that comes after the bytes has a say in how they are decoded. -/
def Whole (b : Bytes) : Prop := ∀ more : Bytes, (b ++ more).textLossy = b.textLossy ++ more.textLossy

theorem whole_empty : Whole .empty := fun more => by
  rw [ByteArray.empty_append, textLossy_empty, String.empty_append]

theorem Whole.append {a b : Bytes} (ha : a.Whole) (hb : b.Whole) : (a ++ b).Whole := fun more => by
  rw [ByteArray.append_assoc, ha, hb, ha, String.append_assoc]

theorem textLossy_ofText_append (s : String) (more : Bytes) :
    (ofText s ++ more).textLossy = s ++ more.textLossy := by
  rw [textLossy, asList_append, asList_ofText, Utf8.decodeLossy_encoded_append, String.ofList_append,
    String.ofList_toList, textLossy]

theorem textLossy_ofText (s : String) : (ofText s).textLossy = s := by
  have h := textLossy_ofText_append s .empty
  rwa [ByteArray.append_empty, textLossy_empty, String.append_empty] at h

theorem ofText_textLossy {b : Bytes} (h : b.IsValidUTF8) : ofText b.textLossy = b :=
  congrArg ofText (textLossy_ofText (.ofByteArray b h))

/-- Decoding can be cut behind an ASCII byte, too. -/
theorem textLossy_append_singleton (a : Bytes) {x : UInt8} (hx : x.toNat < 0x80) (more : Bytes) :
    (a ++ singleton x ++ more).textLossy
      = a.textLossy ++ String.singleton (Char.ofNat x.toNat) ++ more.textLossy := by
  have hx' : Utf8.isTail x = false := by
    rw [Bool.eq_false_iff, ne_eq, Utf8.isTail_iff]
    omega
  have hlist : (a ++ singleton x ++ more).asList = a.asList ++ x :: more.asList := by
    simp [asList, singleton]
  rw [textLossy, hlist, Utf8.decodeLossy_append_cons hx', Utf8.decodeLossy_ascii hx, String.ofList_append,
    String.ofList_cons, String.append_assoc, textLossy, textLossy]

end Enclosure.Bytes
