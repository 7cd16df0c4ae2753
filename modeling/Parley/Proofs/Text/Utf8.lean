import Mathlib.Data.List.TakeWhile
import Parley.Text.Utf8

/-!
# The octets of a text

Octets are read as a text exactly if they are the ones in which the standard library stores it.  The
two sides meet in the sequences: each character has one, and its number is put together again from
the sequence that it was spread over.
-/

namespace Parley.Text

variable {b second : UInt8} {bs tail rest : List UInt8} {c : Char} {n position : Nat}
  {done : List Char} {s : String}

section Octets

theorem isContinuation_iff : isContinuation b = true ↔ 128 ≤ b.toNat ∧ b.toNat < 192 := by
  rw [isContinuation, decide_eq_true_iff]
  exact Iff.rfl

theorem mayFollow_iff : mayFollow b second = true ↔ (128 ≤ second.toNat ∧ second.toNat < 192) ∧
    (b.toNat = 0xe0 → 0xa0 ≤ second.toNat) ∧ (b.toNat = 0xed → second.toNat < 0xa0) ∧
    (b.toNat = 0xf0 → 0x90 ≤ second.toNat) ∧ (b.toNat = 0xf4 → second.toNat < 0x90) := by
  have same (k : UInt8) : (b == k) = decide (b.toNat = k.toNat) := by
    rw [Bool.eq_iff_iff, beq_iff_eq, decide_eq_true_iff, UInt8.toNat_inj]
  simp only [mayFollow, same, Bool.and_eq_true, isContinuation_iff]
  simp [UInt8.le_iff_toNat_le, UInt8.lt_iff_toNat_lt]
  omega

theorem sequenceLength?_iff : sequenceLength? b = some n ↔
    n = 1 ∧ b.toNat < 0x80 ∨ n = 2 ∧ 0xc2 ≤ b.toNat ∧ b.toNat < 0xe0 ∨
      n = 3 ∧ 0xe0 ≤ b.toNat ∧ b.toNat < 0xf0 ∨ n = 4 ∧ 0xf0 ≤ b.toNat ∧ b.toNat < 0xf5 := by
  simp only [sequenceLength?, UInt8.lt_iff_toNat_lt, UInt8.reduceToNat]
  split_ifs <;> simp <;> omega

end Octets

/-- Whether octets are a sequence: the first one needs as many others as there are, and they go on
with it. -/
def IsSequence (b : UInt8) : List UInt8 → Prop
  | [] => sequenceLength? b = some 1
  | second :: more => sequenceLength? b = some (more.length + 2) ∧ mayFollow b second = true ∧
      ∀ o ∈ more, isContinuation o = true

section Reading

theorem goodOctets_of_isSequence {more : List UInt8} (isSequence : IsSequence b (second :: more))
    (rest : List UInt8) :
    goodOctets b (more.length + 2) (second :: (more ++ rest)) = more.length + 2 := by
  obtain ⟨-, follows, continue'⟩ := isSequence
  have whole : more.takeWhile isContinuation = more := List.takeWhile_eq_self_iff.mpr continue'
  simp only [goodOctets, if_pos follows, Nat.add_sub_cancel, List.take_left, whole, Nat.add_comm]

/-- A sequence is read as one character. -/
theorem decodeFrom_sequence (isSequence : IsSequence b tail) :
    decodeFrom position done (b :: (tail ++ rest)) =
      decodeFrom (position + (tail.length + 1)) (Char.ofNat (codePoint b tail) :: done) rest := by
  cases tail with
  | nil =>
      have needed : sequenceLength? b = some 1 := isSequence
      rw [decodeFrom, needed]
      rfl
  | cons second more =>
      have good := goodOctets_of_isSequence isSequence rest
      have behind : (second :: (more ++ rest)).take (more.length + 1) = second :: more := by simp
      have left : (second :: (more ++ rest)).drop (more.length + 1) = rest := by simp
      have others : more.length + 2 - 1 = more.length + 1 := rfl
      rw [decodeFrom, isSequence.1, List.cons_append]
      simp only [good, Nat.lt_irrefl, if_false, others, behind, left, List.length_cons]

/-- What is read begins with a sequence, unless it is nothing. -/
theorem exists_isSequence_of_decodeFrom (read : decodeFrom position done (b :: bs) = .ok s) :
    ∃ tail rest, bs = tail ++ rest ∧ IsSequence b tail := by
  rw [decodeFrom] at read
  split at read
  next => cases read
  next needed => exact ⟨[], bs, rfl, needed⟩
  next needed notOne length =>
    dsimp only at read
    split at read
    next => cases read
    next enough =>
      have two : 2 ≤ needed := by
        rcases sequenceLength?_iff.mp length with one | more
        · exact absurd one.1 notOne
        · omega
      cases bs with
      | nil => exact absurd (show 1 < needed from two) enough
      | cons second bs =>
          have follows : mayFollow b second = true := by
            by_contra broken
            rw [goodOctets, if_neg broken] at enough
            omega
          rw [goodOctets, if_pos follows] at enough
          have some : (bs.take (needed - 2)).length ≤ needed - 2 := List.length_take_le ..
          have row := List.takeWhile_sublist isContinuation (l := bs.take (needed - 2))
          have all := row.eq_of_length_le (by omega)
          have full : (bs.take (needed - 2)).length + 2 = needed := by
            rw [all] at enough
            omega
          refine ⟨second :: bs.take (needed - 2), bs.drop (needed - 2), by simp, ?_, follows, ?_⟩
          · rw [full]
            exact length
          · exact List.takeWhile_eq_self_iff.mp all

end Reading

section Spelling

/-- The octets of the character with a number. -/
theorem utf8EncodeChar_ofNat (valid : n.isValidChar) : String.utf8EncodeChar (Char.ofNat n) =
    if n ≤ 127 then [UInt8.ofNat n]
    else if n ≤ 2047 then [UInt8.ofNat (n / 64 % 32 + 192), UInt8.ofNat (n % 64 + 128)]
    else if n ≤ 65535 then
      [UInt8.ofNat (n / 4096 % 16 + 224), UInt8.ofNat (n / 64 % 64 + 128),
        UInt8.ofNat (n % 64 + 128)]
    else [UInt8.ofNat (n / 262144 % 8 + 240), UInt8.ofNat (n / 4096 % 64 + 128),
      UInt8.ofNat (n / 64 % 64 + 128), UInt8.ofNat (n % 64 + 128)] := by
  have number : (Char.ofNat n).val.toNat = n := by
    rw [Char.ofNat, dif_pos valid]
    rfl
  rw [String.utf8EncodeChar, number]

theorem ofNat_eq {o : UInt8} (same : n = o.toNat) : UInt8.ofNat n = o := by
  rw [same, UInt8.ofNat_toNat]

/-- A sequence is the one of the character that is read from it. -/
theorem utf8EncodeChar_codePoint (isSequence : IsSequence b tail) :
    String.utf8EncodeChar (Char.ofNat (codePoint b tail)) = b :: tail := by
  match tail, isSequence with
  | [], needed =>
      have range := sequenceLength?_iff.mp needed
      obtain ⟨n, value⟩ : ∃ n, n = codePoint b [] := ⟨_, rfl⟩
      have sum : n = b.toNat := value
      rw [← value, utf8EncodeChar_ofNat (.inl (by omega)), if_pos (by omega), ofNat_eq sum]
  | [second], ⟨needed, follows, _⟩ =>
      have range := sequenceLength?_iff.mp needed
      obtain ⟨span, -⟩ := mayFollow_iff.mp follows
      obtain ⟨n, value⟩ : ∃ n, n = codePoint b [second] := ⟨_, rfl⟩
      have sum : n = b.toNat % 32 * 64 + second.toNat % 64 := value
      simp only [List.length_nil] at range
      rw [← value, utf8EncodeChar_ofNat (.inl (by omega)), if_neg (by omega), if_pos (by omega),
        ofNat_eq (o := b) (by omega), ofNat_eq (o := second) (by omega)]
  | [second, third], ⟨needed, follows, continue'⟩ =>
      have range := sequenceLength?_iff.mp needed
      obtain ⟨span, least, most, -⟩ := mayFollow_iff.mp follows
      have last := isContinuation_iff.mp (continue' third (List.mem_cons_self ..))
      obtain ⟨n, value⟩ : ∃ n, n = codePoint b [second, third] := ⟨_, rfl⟩
      have sum : n = (b.toNat % 16 * 64 + second.toNat % 64) * 64 + third.toNat % 64 := value
      simp only [List.length_cons, List.length_nil] at range
      have valid : n.isValidChar := by
        rw [Nat.isValidChar]
        omega
      rw [← value, utf8EncodeChar_ofNat valid, if_neg (by omega), if_neg (by omega),
        if_pos (by omega), ofNat_eq (o := b) (by omega), ofNat_eq (o := second) (by omega),
        ofNat_eq (o := third) (by omega)]
  | [second, third, fourth], ⟨needed, follows, continue'⟩ =>
      have range := sequenceLength?_iff.mp needed
      obtain ⟨span, -, -, least, most⟩ := mayFollow_iff.mp follows
      have inner := isContinuation_iff.mp (continue' third (by simp))
      have last := isContinuation_iff.mp (continue' fourth (by simp))
      obtain ⟨n, value⟩ : ∃ n, n = codePoint b [second, third, fourth] := ⟨_, rfl⟩
      have sum : n = ((b.toNat % 8 * 64 + second.toNat % 64) * 64 + third.toNat % 64) * 64 +
          fourth.toNat % 64 := value
      simp only [List.length_cons, List.length_nil] at range
      have valid : n.isValidChar := by
        rw [Nat.isValidChar]
        omega
      rw [← value, utf8EncodeChar_ofNat valid, if_neg (by omega), if_neg (by omega),
        if_neg (by omega), ofNat_eq (o := b) (by omega), ofNat_eq (o := second) (by omega),
        ofNat_eq (o := third) (by omega), ofNat_eq (o := fourth) (by omega)]
  | _ :: _ :: _ :: _ :: _, ⟨needed, _⟩ =>
      have range := sequenceLength?_iff.mp needed
      simp only [List.length_cons] at range
      omega

theorem toNat_ofNat_of_lt (small : n < 256) : (UInt8.ofNat n).toNat = n := by
  rw [UInt8.toNat_ofNat', Nat.mod_eq_of_lt small]

/-- Six bits of a number are kept behind the mark of an octet that continues a sequence. -/
theorem toNat_continuation (n : Nat) : (UInt8.ofNat (n % 64 + 128)).toNat = n % 64 + 128 :=
  toNat_ofNat_of_lt (by omega)

theorem isContinuation_ofNat (n : Nat) : isContinuation (UInt8.ofNat (n % 64 + 128)) = true := by
  rw [isContinuation_iff, toNat_continuation]
  omega

/-- The octets of a character are a sequence, from which the character is read. -/
theorem exists_isSequence (c : Char) : ∃ b tail, String.utf8EncodeChar c = b :: tail ∧
    IsSequence b tail ∧ Char.ofNat (codePoint b tail) = c := by
  obtain ⟨n, number⟩ : ∃ n, n = c.toNat := ⟨_, rfl⟩
  have valid : n < 0xd800 ∨ 0xdfff < n ∧ n < 0x110000 := number ▸ c.valid
  have char : Char.ofNat n = c := number ▸ Char.ofNat_toNat c
  rw [← char, utf8EncodeChar_ofNat valid]
  split_ifs with one two three
  · have lead : (UInt8.ofNat n).toNat = n := toNat_ofNat_of_lt (by omega)
    refine ⟨_, [], rfl, sequenceLength?_iff.mpr (by omega), congrArg Char.ofNat ?_⟩
    exact lead
  · have lead : (UInt8.ofNat (n / 64 % 32 + 192)).toNat = n / 64 % 32 + 192 :=
      toNat_ofNat_of_lt (by omega)
    refine ⟨_, [_], rfl, ⟨sequenceLength?_iff.mpr ?_, mayFollow_iff.mpr ?_, List.forall_mem_nil _⟩,
      congrArg Char.ofNat ?_⟩
    · rw [lead, List.length_nil]
      omega
    · rw [lead, toNat_continuation]
      omega
    · show _ % 32 * 64 + _ % 64 = n
      rw [lead, toNat_continuation]
      omega
  · have lead : (UInt8.ofNat (n / 4096 % 16 + 224)).toNat = n / 4096 % 16 + 224 :=
      toNat_ofNat_of_lt (by omega)
    refine ⟨_, [_, _], rfl, ⟨sequenceLength?_iff.mpr ?_, mayFollow_iff.mpr ?_,
      List.forall_mem_singleton.mpr (isContinuation_ofNat _)⟩, congrArg Char.ofNat ?_⟩
    · rw [lead, List.length_singleton]
      omega
    · rw [lead, toNat_continuation]
      omega
    · show (_ % 16 * 64 + _ % 64) * 64 + _ % 64 = n
      rw [lead, toNat_continuation, toNat_continuation]
      omega
  · have lead : (UInt8.ofNat (n / 262144 % 8 + 240)).toNat = n / 262144 % 8 + 240 :=
      toNat_ofNat_of_lt (by omega)
    refine ⟨_, [_, _, _], rfl, ⟨sequenceLength?_iff.mpr ?_, mayFollow_iff.mpr ?_,
      List.forall_mem_cons.mpr ⟨isContinuation_ofNat _,
        List.forall_mem_singleton.mpr (isContinuation_ofNat _)⟩⟩,
      congrArg Char.ofNat ?_⟩
    · rw [lead, List.length_cons, List.length_singleton]
      omega
    · rw [lead, toNat_continuation]
      omega
    · show ((_ % 8 * 64 + _ % 64) * 64 + _ % 64) * 64 + _ % 64 = n
      rw [lead, toNat_continuation, toNat_continuation, toNat_continuation]
      omega

end Spelling

/-- The octets of a text are those of its characters. -/
theorem toUTF8_eq (s : String) : s.toUTF8.data.toList = s.toList.flatMap String.utf8EncodeChar := by
  rw [String.toUTF8_eq_toByteArray, ← String.utf8Encode_toList, List.utf8Encode,
    List.toList_data_toByteArray]

/-- The octets of characters are read as these, behind those that were read before. -/
theorem decodeFrom_flatMap (cs : List Char) : decodeFrom position done
    (cs.flatMap String.utf8EncodeChar) = .ok (String.ofList (done.reverse ++ cs)) := by
  induction cs generalizing position done with
  | nil => rw [List.flatMap_nil, decodeFrom, List.append_nil]
  | cons c cs ih =>
      obtain ⟨b, tail, spelled, isSequence, same⟩ := exists_isSequence c
      rw [List.flatMap_cons, spelled, List.cons_append, decodeFrom_sequence isSequence, same, ih,
        List.reverse_cons, List.append_assoc, List.singleton_append]

/-- What is read without a flaw are the octets of characters. -/
theorem exists_flatMap_of_decodeFrom (read : decodeFrom position done bs = .ok s) :
    ∃ cs, bs = cs.flatMap String.utf8EncodeChar ∧ s = String.ofList (done.reverse ++ cs) := by
  -- Each step takes a whole sequence off, so the induction is on the number of octets.
  induction length : bs.length using Nat.strongRecOn generalizing position done bs with
  | ind size ih =>
      cases bs with
      | nil =>
          rw [decodeFrom] at read
          exact ⟨[], rfl, by rw [List.append_nil, Except.ok.inj read]⟩
      | cons b bs =>
          obtain ⟨tail, rest, rfl, isSequence⟩ := exists_isSequence_of_decodeFrom read
          rw [decodeFrom_sequence isSequence] at read
          have fewer : rest.length < size := by
            rw [← length, List.length_cons, List.length_append]
            omega
          obtain ⟨cs, rfl, rfl⟩ := ih _ fewer read rfl
          refine ⟨Char.ofNat (codePoint b tail) :: cs, ?_, by simp⟩
          rw [List.flatMap_cons, utf8EncodeChar_codePoint isSequence, List.cons_append]

/-- Octets are read as a text exactly if they are the octets of that text. -/
theorem decode_eq_ok : decode bs = .ok s ↔ bs = s.toUTF8.data.toList := by
  rw [toUTF8_eq, decode]
  constructor
  · intro read
    obtain ⟨cs, rfl, rfl⟩ := exists_flatMap_of_decodeFrom read
    rw [List.reverse_nil, List.nil_append, String.toList_ofList]
  · rintro rfl
    rw [decodeFrom_flatMap, List.reverse_nil, List.nil_append, String.ofList_toList]

theorem toUTF8_inj {s' : String} (same : s.toUTF8.data.toList = s'.toUTF8.data.toList) : s = s' :=
  Except.ok.inj ((decode_eq_ok.mpr rfl).symm.trans (decode_eq_ok.mpr same))

end Parley.Text
