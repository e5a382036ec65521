import Mathlib.Algebra.Group.Nat.Defs
import Tracemark.Json.Reader
import Tracemark.Json.Writer

/-!
# Reading what was written as JSON

What was written is read again as it was: texts of any characters, whole numbers that are
not too long, and lists and objects of such values that are not nested too deeply.
-/

set_option autoImplicit false

namespace Tracemark

theorem Members.put_of_fresh {key : String} {value : Value} {members : Members}
    (fresh : key ∉ members.map (·.1)) : put key value members = members ++ [(key, value)] := by
  induction members with
  | nil => rfl
  | cons member rest ih =>
      simp only [List.map_cons, List.mem_cons, not_or] at fresh
      simp [put, Ne.symm fresh.1, ih fresh.2]

theorem Text.hexPadded_succ (width code : Nat) :
    hexPadded (width + 2) code =
      hexPadded (width + 1) (code / 16) ++ [Nat.digitChar (code % 16)] := by
  simp only [hexPadded]
  by_cases small : code < 16
  · have none : code / 16 = 0 := by omega
    rw [none, Nat.toDigits_of_lt_base small, Nat.toDigits_of_lt_base (by decide : 0 < 16),
      Nat.mod_eq_of_lt small, ← List.append_nil (List.replicate _ '0')]
    simp [List.replicate_succ']
  · rw [Nat.toDigits_of_base_le (by decide) (Nat.le_of_not_lt small)]
    simp

namespace Json

/-! ## Texts -/

theorem hexValue?_digitChar : ∀ digit < 16, hexValue? (Nat.digitChar digit) = some digit := by
  decide

def unitDigits (unit : Nat) : List Nat :=
  [unit / 16 / 16 / 16, unit / 16 / 16 % 16, unit / 16 % 16, unit % 16]

theorem lt_of_mem_unitDigits {unit : Nat} (small : unit < 0x10000) :
    ∀ digit ∈ unitDigits unit, digit < 16 := by
  simp only [unitDigits, List.forall_mem_cons]
  refine ⟨by omega, by omega, by omega, by omega, by simp⟩

theorem unitEscape_eq {unit : Nat} (small : unit < 0x10000) :
    unitEscape unit = '\\' :: 'u' :: (unitDigits unit).map Nat.digitChar := by
  have first : Text.hexPadded 1 (unit / 16 / 16 / 16) = [Nat.digitChar (unit / 16 / 16 / 16)] := by
    rw [Text.hexPadded, Nat.toDigits_of_lt_base (by omega)]
    rfl
  rw [unitEscape, Text.hexPadded_succ, Text.hexPadded_succ, Text.hexPadded_succ, first]
  rfl

theorem readPieces_unitEscape {unit : Nat} (small : unit < 0x10000) (opened : Nat)
    {tail : List Char} (some : tail ≠ []) :
    readPieces opened (unitEscape unit ++ tail) =
      consPiece (.unit unit) (readPieces opened tail) := by
  have value : ∀ digit ∈ unitDigits unit, hexValue? (Nat.digitChar digit) = .some digit :=
    fun digit member => hexValue?_digitChar digit (lt_of_mem_unitDigits small digit member)
  have whole : ((unit / 16 / 16 / 16 * 16 + unit / 16 / 16 % 16) * 16 + unit / 16 % 16) * 16 +
      unit % 16 = unit := by omega
  rw [unitEscape_eq small]
  simp only [unitDigits, List.forall_mem_cons] at value ⊢
  simp [readPieces, unit?, value, whole, some]

theorem joinPieces_unit {code : Nat} (single : code < 0xD800 ∨ 0xDFFF < code)
    (pieces : List Piece) :
    joinPieces (.unit code :: pieces) = Char.ofNat code :: joinPieces pieces := by
  have own : charOfUnit code = Char.ofNat code := by
    rw [charOfUnit, if_neg (by simp; omega)]
  have noPair : ∀ low, ¬ (0xD800 ≤ code && code ≤ 0xDBFF && 0xDC00 ≤ low && low ≤ 0xDFFF) = true := by
    intro low
    simp
    omega
  cases pieces with
  | nil => simp [joinPieces, own]
  | cons piece rest =>
      cases piece with
      | char character => simp [joinPieces, own]
      | unit low => rw [joinPieces, if_neg (noPair low), own]

/-- A character beyond the units is written by two of them, which are read as one. -/
theorem joinPieces_pair {code : Nat} (least : 0x10000 ≤ code) (greatest : code < 0x110000)
    (pieces : List Piece) :
    joinPieces (.unit (0xD800 + (code - 0x10000) / 0x400) ::
      .unit (0xDC00 + (code - 0x10000) % 0x400) :: pieces) =
      Char.ofNat code :: joinPieces pieces := by
  have whole : 0x10000 + (0xD800 + (code - 0x10000) / 0x400 - 0xD800) * 0x400 +
      (0xDC00 + (code - 0x10000) % 0x400 - 0xDC00) = code := by omega
  rw [joinPieces, if_pos, whole]
  simp
  omega

/-- The pieces stand for the character, whatever pieces follow. -/
def Piece.Spell (pieces : List Piece) (c : Char) : Prop :=
  ∀ later, joinPieces (pieces ++ later) = c :: joinPieces later

theorem readPieces_letter {letter c : Char} (notUnit : letter ≠ 'u')
    (escapes : simpleEscape? letter = some c) (opened : Nat) (tail : List Char) :
    readPieces opened ('\\' :: letter :: tail) =
      consPiece (.char c) (readPieces opened tail) := by
  rw [readPieces]
  · simp [notUnit, escapes]
  · rintro _ _ _ _ _ rfl
    exact absurd rfl notUnit

theorem readPieces_plain {c : Char} (noQuote : c ≠ '"') (noEscape : c ≠ '\\')
    (printable : 0x1F < c.toNat) (opened : Nat) (tail : List Char) :
    readPieces opened (c :: tail) = consPiece (.char c) (readPieces opened tail) := by
  rw [readPieces]
  · simp [Nat.not_le.mpr printable]
  · exact noQuote
  · exact fun isEscape _ => noEscape isEscape
  · exact fun _ _ _ _ _ isEscape _ => noEscape isEscape
  · exact fun _ _ isEscape _ => noEscape isEscape

theorem readPieces_unitEscapes {high low : Nat} (smallHigh : high < 0x10000)
    (smallLow : low < 0x10000) (opened : Nat) {tail : List Char} (some : tail ≠ []) :
    readPieces opened (unitEscape high ++ unitEscape low ++ tail) =
      (readPieces opened tail).map fun (later, rest) => ([.unit high, .unit low] ++ later, rest) := by
  rw [List.append_assoc, readPieces_unitEscape smallHigh opened (by simp [unitEscape]),
    readPieces_unitEscape smallLow opened some]
  cases readPieces opened tail <;> rfl

/-- The characters in which JSON is written: the printable ones of ASCII. -/
def isPlain (c : Char) : Bool :=
  0x20 ≤ c.toNat && c.toNat ≤ 0x7E

inductive Escape (c : Char) : List Char → Prop where
  | letter {letter : Char} : letter ≠ 'u' → isPlain letter = true → simpleEscape? letter = some c →
      Escape c ['\\', letter]
  | plain : c ≠ '"' → c ≠ '\\' → isPlain c = true → Escape c [c]
  | unit : c.toNat < 0x10000 → Escape c (unitEscape c.toNat)
  | pair : 0x10000 ≤ c.toNat →
      Escape c (unitEscape (0xD800 + (c.toNat - 0x10000) / 0x400) ++
        unitEscape (0xDC00 + (c.toNat - 0x10000) % 0x400))

/-- The characters that are written with a letter. -/
def letterEscapes : List Char :=
  ['"', '\\', '\n', '\r', '\t', Char.ofNat 0x0C, Char.ofNat 0x08]

theorem escapedChar_of_not_mem {c : Char} (other : c ∉ letterEscapes) :
    escapedChar c =
      if isPlain c then [c]
      else if c.toNat < 0x10000 then unitEscape c.toNat
      else
        unitEscape (0xD800 + (c.toNat - 0x10000) / 0x400) ++
          unitEscape (0xDC00 + (c.toNat - 0x10000) % 0x400) := by
  have code {number : Nat} (differs : c ≠ Char.ofNat number) : c.toNat ≠ number := fun same =>
    differs (same ▸ (Char.ofNat_toNat c).symm)
  simp only [letterEscapes, List.mem_cons, List.not_mem_nil, or_false, not_or] at other
  obtain ⟨quote, backslash, feed, carriage, tab, page, back⟩ := other
  simp only [escapedChar, beq_iff_eq, quote, backslash, feed, carriage, tab, code page, code back,
    if_false]
  rfl

theorem escape_escapedChar (c : Char) : Escape c (escapedChar c) := by
  by_cases special : c ∈ letterEscapes
  · simp only [letterEscapes, List.mem_cons, List.not_mem_nil, or_false] at special
    rcases special with rfl | rfl | rfl | rfl | rfl | rfl | rfl
    all_goals exact .letter (by decide) rfl rfl
  · rw [escapedChar_of_not_mem special]
    split
    · rename_i plain
      refine .plain (fun isQuote => special ?_) (fun isBackslash => special ?_) plain
      · simp [isQuote, letterEscapes]
      · simp [isBackslash, letterEscapes]
    · split
      · rename_i small
        exact .unit small
      · rename_i large
        exact .pair (Nat.not_lt.mp large)

/-- What a character is written as is read as pieces that stand for it. -/
theorem readPieces_escapedChar (opened : Nat) (c : Char) {tail : List Char} (some : tail ≠ []) :
    ∃ pieces, Piece.Spell pieces c ∧
      readPieces opened (escapedChar c ++ tail) =
        (readPieces opened tail).map fun (later, rest) => (pieces ++ later, rest) := by
  have itself : Piece.Spell [.char c] c := fun later => rfl
  have valid : c.toNat < 0xD800 ∨ 0xDFFF < c.toNat ∧ c.toNat < 0x110000 := c.valid
  have same : Char.ofNat c.toNat = c := Char.ofNat_toNat c
  generalize isWritten : escapedChar c = written
  have escape : Escape c written := isWritten ▸ escape_escapedChar c
  cases escape with
  | letter notUnit _ escapes => exact ⟨_, itself, readPieces_letter notUnit escapes opened tail⟩
  | plain noQuote noEscape printable =>
      simp only [isPlain, Bool.and_eq_true, decide_eq_true_eq] at printable
      exact ⟨_, itself, readPieces_plain noQuote noEscape (by omega) opened tail⟩
  | unit small =>
      refine ⟨[.unit c.toNat], fun later => ?_, readPieces_unitEscape small opened some⟩
      rw [List.singleton_append, joinPieces_unit (by omega), same]
  | pair large =>
      refine ⟨_, fun later => ?_, readPieces_unitEscapes (by omega) (by omega) opened some⟩
      rw [List.cons_append, List.singleton_append, joinPieces_pair (by omega) (by omega), same]

theorem readText_escaped (opened : Nat) (text rest : List Char) :
    readText opened (text.flatMap escapedChar ++ '"' :: rest) = .ok (text, rest) := by
  have pieces : ∃ pieces, joinPieces pieces = text ∧
      readPieces opened (text.flatMap escapedChar ++ '"' :: rest) = .ok (pieces, rest) := by
    induction text with
    | nil => exact ⟨[], rfl, by simp [readPieces]⟩
    | cons c text ih =>
        obtain ⟨later, areLater, isRead⟩ := ih
        obtain ⟨first, spells, reads⟩ := readPieces_escapedChar opened c
          (show text.flatMap escapedChar ++ '"' :: rest ≠ [] by simp)
        refine ⟨first ++ later, by rw [spells, areLater], ?_⟩
        rw [List.flatMap_cons, List.append_assoc, reads, isRead]
        rfl
  obtain ⟨pieces, spelled, isRead⟩ := pieces
  rw [readText, isRead, ← spelled]
  rfl

theorem isPlain_digitChar : ∀ digit < 16, isPlain (Nat.digitChar digit) = true := by
  decide

theorem isPlain_unitEscape {unit : Nat} (small : unit < 0x10000) :
    ∀ c ∈ unitEscape unit, isPlain c = true := by
  rw [unitEscape_eq small]
  refine List.forall_mem_cons.mpr ⟨rfl, List.forall_mem_cons.mpr ⟨rfl, fun c member => ?_⟩⟩
  obtain ⟨digit, isDigit, rfl⟩ := List.mem_map.mp member
  exact isPlain_digitChar digit (lt_of_mem_unitDigits small digit isDigit)

theorem isPlain_escapedChar (c : Char) : ∀ other ∈ escapedChar c, isPlain other = true := by
  have valid : c.toNat < 0xD800 ∨ 0xDFFF < c.toNat ∧ c.toNat < 0x110000 := c.valid
  generalize isWritten : escapedChar c = written
  have escape : Escape c written := isWritten ▸ escape_escapedChar c
  cases escape with
  | letter _ plain _ => exact List.forall_mem_cons.mpr ⟨rfl, List.forall_mem_singleton.mpr plain⟩
  | plain _ _ plain => exact List.forall_mem_singleton.mpr plain
  | unit small => exact isPlain_unitEscape small
  | pair large =>
      exact List.forall_mem_append.mpr
        ⟨isPlain_unitEscape (by omega), isPlain_unitEscape (by omega)⟩

theorem isPlain_escaped (text : List Char) :
    ∀ c ∈ text.flatMap escapedChar, isPlain c = true := by
  intro c member
  obtain ⟨own, _, inOwn⟩ := List.mem_flatMap.mp member
  exact isPlain_escapedChar own c inOwn

/-! ## Whole numbers -/

theorem digitsValue_toDigits (number : Nat) : digitsValue (Nat.toDigits 10 number) = number := by
  have same : digitsValue = fun digits => Nat.ofDigitChars 10 digits 0 := by
    funext digits
    simp only [digitsValue, Nat.ofDigitChars, Nat.mul_comm 10]
    rfl
  rw [same]
  exact Nat.ofDigitChars_toDigits (by decide) (by decide)

theorem isDigit_of_mem_toDigits {number : Nat} {c : Char} (member : c ∈ Nat.toDigits 10 number) :
    isDigit c = true := by
  have digit := Nat.isDigit_of_mem_toDigits (by decide) (by decide) member
  simpa [Char.isDigit, isDigit, Char.le_def, and_comm] using digit

theorem head_toDigits_ne_zero {number : Nat} (positive : 0 < number) :
    (Nat.toDigits 10 number).head? ≠ some '0' := by
  induction number using Nat.strongRecOn with
  | ind number ih =>
      by_cases small : number < 10
      · have digits : ∀ digit < 10, 0 < digit → Nat.digitChar digit ≠ '0' := by decide
        simpa [Nat.toDigits_of_lt_base small] using digits number small positive
      · rw [Nat.toDigits_of_base_le (by decide) (Nat.le_of_not_lt small), List.head?_append,
          Option.or_of_isSome (by simp [Nat.toDigits_ne_nil])]
        exact ih (number / 10) (by omega) (by omega)

/-- What may follow a number: nothing that would belong to it. -/
def EndsNumber (rest : List Char) : Prop :=
  ∀ c ∈ rest.head?, isDigit c = false ∧ c ≠ '.' ∧ c ≠ 'e' ∧ c ≠ 'E'

namespace EndsNumber

variable {rest : List Char}

theorem takeWhile (ends : EndsNumber rest) : rest.takeWhile isDigit = [] := by
  cases rest with
  | nil => rfl
  | cons c rest => simp [(ends c rfl).1]

theorem dropWhile (ends : EndsNumber rest) : rest.dropWhile isDigit = rest := by
  cases rest with
  | nil => rfl
  | cons c rest => simp [(ends c rfl).1]

theorem fraction (ends : EndsNumber rest) : fraction rest = ([], rest) := by
  unfold Json.fraction
  split
  · exact absurd rfl (ends '.' rfl).2.1
  · rfl

theorem exponent (ends : EndsNumber rest) : exponent rest = (none, rest) := by
  cases rest with
  | nil => rfl
  | cons c rest => simp [Json.exponent, (ends c rfl).2.2]

theorem wholeDigits?_toDigits (ends : EndsNumber rest) (number : Nat) :
    wholeDigits? (Nat.toDigits 10 number ++ rest) = some (Nat.toDigits 10 number, rest) := by
  rcases Nat.eq_zero_or_pos number with rfl | positive
  · rfl
  · have digits : ∀ c ∈ Nat.toDigits 10 number, isDigit c = true := fun c => isDigit_of_mem_toDigits
    unfold wholeDigits?
    split
    · rename_i others begins
      have first := head_toDigits_ne_zero positive
      obtain ⟨c, more, isFirst⟩ := List.exists_cons_of_ne_nil (@Nat.toDigits_ne_nil number 10)
      rw [isFirst] at begins first
      exact absurd (congrArg some (List.cons.inj begins).1) first
    · simp only [List.takeWhile_append_of_pos digits, List.dropWhile_append_of_pos digits,
        ends.takeWhile, ends.dropWhile, List.append_nil]
      rw [if_neg (by simp [Nat.toDigits_ne_nil])]

end EndsNumber

/-- A number is read from its digits, which come after the sign. -/
theorem readNumber_of_digits {number : Nat} (short : number < 10 ^ digitLimit) {rest : List Char}
    (ends : EndsNumber rest) :
    readNumber (Nat.toDigits 10 number ++ rest) = .ok (.int number, rest) ∧
      readNumber ('-' :: (Nat.toDigits 10 number ++ rest)) = .ok (.int (-number), rest) := by
  have size : ¬ digitLimit < (Nat.toDigits 10 number).length :=
    Nat.not_lt.mpr ((Nat.length_toDigits_le_iff (by decide) (by decide)).mpr short)
  have whole := ends.wholeDigits?_toDigits number
  have value := digitsValue_toDigits number
  have unsigned : ∀ more, Nat.toDigits 10 number ++ rest ≠ '-' :: more := by
    intro more same
    obtain ⟨c, others, isFirst⟩ := List.exists_cons_of_ne_nil (@Nat.toDigits_ne_nil number 10)
    have digit : isDigit c = true := isDigit_of_mem_toDigits (isFirst ▸ List.mem_cons_self)
    rw [isFirst, List.cons_append] at same
    cases (List.cons.inj same).1
    cases digit
  constructor
  · unfold readNumber
    split
    rename_i negative digits isFront
    split at isFront
    · rename_i more same
      exact absurd same (unsigned more)
    · cases isFront
      simp only [whole, ends.fraction, ends.exponent]
      simp [size, value]
  · unfold readNumber
    dsimp only
    simp only [whole, ends.fraction, ends.exponent]
    simp [size, value]

theorem toList_toString (number : Int) :
    (toString number).toList =
      if number < 0 then '-' :: Nat.toDigits 10 number.natAbs else Nat.toDigits 10 number.natAbs := by
  cases number with
  | ofNat size =>
      rw [if_neg (by simp)]
      exact Nat.toList_repr
  | negSucc size =>
      rw [if_pos (by simp [Int.negSucc_lt_zero]), Int.toString_eq_repr, Int.repr,
        String.toList_append, Nat.toList_repr]
      rfl

theorem readNumber_toString {number : Int} (short : number.natAbs < 10 ^ digitLimit)
    {rest : List Char} (ends : EndsNumber rest) :
    readNumber ((toString number).toList ++ rest) = .ok (.int number, rest) := by
  obtain ⟨unsigned, negative⟩ := readNumber_of_digits short ends
  rw [toList_toString]
  split
  · rw [List.cons_append, negative]
    congr 3
    omega
  · rw [unsigned]
    congr 3
    omega

/-! ## Values -/

def written (value : Value) : List Char :=
  (write value).toList

def writtenMember (member : String × Value) : List Char :=
  (writeText member.1).toList ++ ':' :: ' ' :: written member.2

def joined (parts : List (List Char)) : List Char :=
  [',', ' '].intercalate parts

theorem joined_cons (part : List Char) {rest : List (List Char)} (some : rest ≠ []) :
    joined (part :: rest) = part ++ ',' :: ' ' :: joined rest := by
  cases rest with
  | nil => exact absurd rfl some
  | cons next rest => simp [joined, List.intercalate_cons_cons]

theorem toList_writeText (text : String) :
    (writeText text).toList = '"' :: (text.toList.flatMap escapedChar ++ ['"']) := by
  simp [writeText]

theorem writeItems_eq (items : List Value) : writeItems items = items.map write := by
  induction items with
  | nil => rfl
  | cons item rest ih => rw [writeItems, ih, List.map_cons]

theorem writeMembers_eq (members : Members) :
    writeMembers members = members.map fun member => writeText member.1 ++ ": " ++ write member.2 := by
  induction members with
  | nil => rfl
  | cons member rest ih => rw [writeMembers, ih, List.map_cons]

theorem written_list (items : List Value) :
    written (.list items) = '[' :: (joined (items.map written) ++ [']']) := by
  simp only [written, write, writeItems_eq, String.toList_append, String.toList_intercalate,
    List.map_map, joined]
  rfl

theorem written_object (members : Members) :
    written (.object members) = '{' :: (joined (members.map writtenMember) ++ ['}']) := by
  have parts : (members.map fun member => writeText member.1 ++ ": " ++ write member.2).map
      String.toList = members.map writtenMember := by
    simp [writtenMember, written]
  simp only [written, write, writeMembers_eq, String.toList_append, String.toList_intercalate, parts,
    joined]
  rfl

/-- A character with which a value can begin: no blank space, no end of a list or an object,
and no byte-order mark. -/
def opensValue (c : Char) : Bool :=
  !isGap c && c != ']' && c != '}' && c != Char.ofNat 0xFEFF

/-- The value is written in plain characters and read again from them, where lists and objects
can be nested so deeply. -/
structure ReadsBack (depth : Nat) (value : Value) : Prop where
  plain : ∀ c ∈ written value, isPlain c = true
  opens : (written value).head?.any opensValue = true
  reads : ∀ fuel rest, (written value).length ≤ fuel → EndsNumber rest →
    readValue fuel depth (written value ++ rest) = .ok (value, rest)

theorem isPlain_writeText (text : String) : ∀ c ∈ (writeText text).toList, isPlain c = true := by
  rw [toList_writeText]
  exact List.forall_mem_cons.mpr ⟨rfl, List.forall_mem_append.mpr
    ⟨isPlain_escaped text.toList, List.forall_mem_singleton.mpr rfl⟩⟩

theorem readsBack_text (depth : Nat) (text : String) : ReadsBack depth (.text text) where
  plain := isPlain_writeText text
  opens := by simp [written, write, toList_writeText, opensValue, isGap]
  reads := by
    intro fuel rest enough _
    simp only [written, write, toList_writeText, List.length_cons] at enough ⊢
    obtain ⟨fuel, rfl⟩ : ∃ less, fuel = less + 1 := ⟨fuel - 1, by omega⟩
    simp [readValue, readText_escaped, Except.map]

/-- A keyword has no digits among its first two characters, and a number has. -/
theorem keyword?_of_digit {input : List Char} (digit : (input.take 2).any isDigit = true) :
    keyword? input = none := by
  have others : ∀ word ∈ keywords.map (·.1.toList),
      2 ≤ word.length ∧ (word.take 2).any isDigit = false := by
    decide
  rw [keyword?, List.findSome?_eq_none_iff]
  rintro ⟨word, value⟩ member
  obtain ⟨long, other⟩ := others word.toList (List.mem_map_of_mem member)
  dsimp only
  rw [if_neg]
  intro isPrefix
  obtain ⟨rest, rfl⟩ := List.isPrefixOf_iff_prefix.mp isPrefix
  rw [List.take_append_of_le_length long, other] at digit
  cases digit

/-- Only a number begins with a digit, or with a minus sign and a digit. -/
theorem readValue_of_number {first : Char} {tail : List Char}
    (begins : isDigit first = true ∨ first = '-')
    (digit : ((first :: tail).take 2).any isDigit = true) (fuel depth : Nat) :
    opensValue first = true ∧
      readValue (fuel + 1) depth (first :: tail) = readNumber (first :: tail) := by
  have apart (other : Char) (noDigit : isDigit other = false) (noMinus : other ≠ '-') :
      first ≠ other := by
    rintro rfl
    exact begins.elim (fun isDigit => nomatch isDigit.symm.trans noDigit) noMinus
  constructor
  · simp [opensValue, isGap, apart ' ' rfl, apart '\t' rfl, apart '\n' rfl, apart '\r' rfl,
      apart ']' rfl, apart '}' rfl, apart (Char.ofNat 0xFEFF) rfl]
  · simp [readValue, apart '"' rfl, apart '[' rfl, apart '{' rfl, keyword?_of_digit digit]

theorem isPlain_of_isDigit {c : Char} (digit : isDigit c = true) : isPlain c = true := by
  simp only [isDigit, Bool.and_eq_true, decide_eq_true_eq, Char.le_def, UInt32.le_iff_toNat_le] at digit
  simp only [isPlain, Bool.and_eq_true, decide_eq_true_eq]
  obtain ⟨least, greatest⟩ := digit
  change 48 ≤ c.toNat at least
  change c.toNat ≤ 57 at greatest
  omega

theorem readsBack_int (depth : Nat) {number : Int} (short : number.natAbs < 10 ^ digitLimit) :
    ReadsBack depth (.int number) := by
  obtain ⟨c, more, isFirst⟩ := List.exists_cons_of_ne_nil (@Nat.toDigits_ne_nil number.natAbs 10)
  have digit : isDigit c = true := isDigit_of_mem_toDigits (isFirst ▸ List.mem_cons_self)
  obtain ⟨first, tail, begins, isWritten, inTwo⟩ : ∃ first tail,
      (isDigit first = true ∨ first = '-') ∧ written (.int number) = first :: tail ∧
        ∀ rest, ((first :: tail ++ rest).take 2).any isDigit = true := by
    rw [written, write, toList_toString, isFirst]
    split
    · exact ⟨'-', c :: more, .inr rfl, rfl, by simp [digit]⟩
    · exact ⟨c, more, .inl digit, rfl, by simp [digit]⟩
  refine ⟨fun other member => ?_, ?_, fun fuel rest enough ends => ?_⟩
  · rw [written, write, toList_toString] at member
    split at member
    · rcases List.mem_cons.mp member with rfl | isDigit
      · rfl
      · exact isPlain_of_isDigit (isDigit_of_mem_toDigits isDigit)
    · exact isPlain_of_isDigit (isDigit_of_mem_toDigits member)
  · rw [isWritten]
    exact (readValue_of_number begins (inTwo []) 0 0).1
  · have isNumber : readNumber (written (.int number) ++ rest) = .ok (.int number, rest) :=
      readNumber_toString short ends
    rw [isWritten, List.length_cons] at enough
    obtain ⟨fuel, rfl⟩ : ∃ less, fuel = less + 1 := ⟨fuel - 1, by omega⟩
    rw [← isNumber, isWritten]
    exact (readValue_of_number begins (inTwo rest) fuel depth).2

/-! ## Lists and objects -/

theorem skipGap_of_opens {input : List Char} (opens : input.head?.any opensValue = true) :
    skipGap input = input := by
  cases input with
  | nil => rfl
  | cons c rest =>
      simp only [List.head?_cons, Option.any_some, opensValue, Bool.and_eq_true, Bool.not_eq_true'] at opens
      simp [skipGap, opens.1.1.1]

theorem endsNumber_cons {c : Char} (ends : isDigit c = false ∧ c ≠ '.' ∧ c ≠ 'e' ∧ c ≠ 'E')
    (rest : List Char) : EndsNumber (c :: rest) := by
  rintro _ ⟨⟩
  exact ends

theorem isPlain_joined {parts : List (List Char)}
    (plain : ∀ part ∈ parts, ∀ c ∈ part, isPlain c = true) :
    ∀ c ∈ joined parts, isPlain c = true := by
  induction parts with
  | nil => simp [joined]
  | cons part rest ih =>
      obtain ⟨first, others⟩ := List.forall_mem_cons.mp plain
      by_cases last : rest = []
      · subst last
        simpa [joined] using first
      · rw [joined_cons part last]
        exact List.forall_mem_append.mpr ⟨first,
          List.forall_mem_cons.mpr ⟨rfl, List.forall_mem_cons.mpr ⟨rfl, ih others⟩⟩⟩

theorem isPlain_enclosed {opening closing : Char} (opens : isPlain opening = true)
    (closes : isPlain closing = true) {parts : List (List Char)}
    (plain : ∀ part ∈ parts, ∀ c ∈ part, isPlain c = true) :
    ∀ c ∈ opening :: (joined parts ++ [closing]), isPlain c = true :=
  List.forall_mem_cons.mpr ⟨opens, List.forall_mem_append.mpr
    ⟨isPlain_joined plain, List.forall_mem_singleton.mpr closes⟩⟩

theorem opens_joined {parts : List (List Char)} (some : parts ≠ [])
    (opens : ∀ part ∈ parts, part.head?.any opensValue = true) (tail : List Char) :
    (joined parts ++ tail).head?.any opensValue = true := by
  obtain ⟨part, rest, rfl⟩ := List.exists_cons_of_ne_nil some
  have first := opens part List.mem_cons_self
  cases part with
  | nil => cases first
  | cons c part =>
      cases rest with
      | nil => simpa [joined] using first
      | cons next rest => simpa [joined, List.intercalate_cons_cons] using first

/-- After a part that is not the last come a comma, a space and the next part. -/
theorem skipGap_joined {parts : List (List Char)} (some : parts ≠ [])
    (opens : ∀ part ∈ parts, part.head?.any opensValue = true) (tail : List Char) :
    skipGap (' ' :: (joined parts ++ tail)) = joined parts ++ tail :=
  skipGap_of_opens (opens_joined some opens tail)

theorem ReadsBack.opens_of_mem {depth : Nat} {items : List Value}
    (each : ∀ item ∈ items, ReadsBack depth item) :
    ∀ part ∈ items.map written, part.head?.any opensValue = true := by
  rintro part member
  obtain ⟨item, isItem, rfl⟩ := List.mem_map.mp member
  exact (each item isItem).opens

theorem readItems_joined {depth : Nat} {items : List Value} (some : items ≠ [])
    (each : ∀ item ∈ items, ReadsBack depth item) {fuel : Nat}
    (enough : (joined (items.map written)).length < fuel) (left : List Char) :
    readItems fuel depth (joined (items.map written) ++ ']' :: left) = .ok (items, left) := by
  induction items generalizing fuel with
  | nil => exact absurd rfl some
  | cons item rest ih =>
      obtain ⟨fuel, rfl⟩ : ∃ less, fuel = less + 1 := ⟨fuel - 1, by omega⟩
      obtain ⟨first, others⟩ := List.forall_mem_cons.mp each
      by_cases last : rest = []
      · subst last
        have only : joined ([item].map written) = written item := by simp [joined]
        rw [only] at enough ⊢
        have reads := first.reads fuel (']' :: left) (by omega) (endsNumber_cons (by decide) _)
        simp only [readItems, reads]
        rfl
      · have more : rest.map written ≠ [] := by simpa using last
        rw [List.map_cons, joined_cons _ more] at enough ⊢
        simp only [List.length_append, List.length_cons] at enough
        have reads := first.reads fuel (',' :: ' ' :: (joined (rest.map written) ++ ']' :: left))
          (by omega) (endsNumber_cons (by decide) _)
        have opens := skipGap_joined more (ReadsBack.opens_of_mem others) (']' :: left)
        have later := ih last others (show (joined (rest.map written)).length < fuel by omega)
        have here : skipGap (',' :: ' ' :: (joined (rest.map written) ++ ']' :: left)) =
          ',' :: ' ' :: (joined (rest.map written) ++ ']' :: left) := rfl
        simp only [List.append_assoc, List.cons_append, readItems, reads]
        simp only [bind, Except.bind, here, opens, later]
        rfl

theorem readValue_list {first : List Char} (opens : first.head?.any opensValue = true)
    (fuel depth : Nat) :
    readValue (fuel + 1) (depth + 1) ('[' :: first) =
      (readItems fuel depth first).map fun (items, left) => (.list items, left) := by
  have here := skipGap_of_opens opens
  cases first with
  | nil => cases opens
  | cons c rest =>
      have goesOn : c ≠ ']' := by
        rintro rfl
        cases opens
      simp [readValue, here, goesOn]

theorem readValue_object {first : List Char} (opens : first.head?.any opensValue = true)
    (fuel depth : Nat) :
    readValue (fuel + 1) (depth + 1) ('{' :: first) =
      (readMembers fuel depth [] first).map fun (members, left) => (.object members, left) := by
  have here := skipGap_of_opens opens
  cases first with
  | nil => cases opens
  | cons c rest =>
      have goesOn : c ≠ '}' := by
        rintro rfl
        cases opens
      simp [readValue, here, goesOn]

theorem readsBack_list {depth : Nat} {items : List Value}
    (each : ∀ item ∈ items, ReadsBack depth item) : ReadsBack (depth + 1) (.list items) := by
  refine ⟨?_, by simp [written_list, opensValue, isGap], fun fuel rest enough _ => ?_⟩
  · rw [written_list]
    exact isPlain_enclosed rfl rfl
      (List.forall_mem_map.mpr fun item member => (each item member).plain)
  rw [written_list, List.length_cons, List.length_append] at enough
  obtain ⟨fuel, rfl⟩ : ∃ less, fuel = less + 1 := ⟨fuel - 1, by omega⟩
  rw [written_list, List.cons_append, List.append_assoc, List.singleton_append]
  by_cases none : items = []
  · subst none
    rfl
  · have more : items.map written ≠ [] := by simpa using none
    have opens := opens_joined more (ReadsBack.opens_of_mem each) (']' :: rest)
    have reads := readItems_joined none each
      (show (joined (items.map written)).length < fuel by simp at enough; omega) rest
    rw [readValue_list opens, reads]
    rfl

theorem opens_writtenMember (member : String × Value) :
    (writtenMember member).head?.any opensValue = true := by
  simp [writtenMember, toList_writeText, opensValue, isGap]

theorem opens_of_mem_writtenMember (members : Members) :
    ∀ part ∈ members.map writtenMember, part.head?.any opensValue = true := by
  rintro part isPart
  obtain ⟨member, _, rfl⟩ := List.mem_map.mp isPart
  exact opens_writtenMember member

/-- A member is read up to what follows its value, and put behind those that were read. -/
theorem readMembers_member {depth fuel : Nat} {done : Members} {member : String × Value}
    (fresh : member.1 ∉ done.map (·.1)) (reads : ReadsBack depth member.2)
    (enough : (writtenMember member).length ≤ fuel) {c : Char}
    (ends : isDigit c = false ∧ c ≠ '.' ∧ c ≠ 'e' ∧ c ≠ 'E') (tail : List Char) :
    readMembers (fuel + 1) depth done (writtenMember member ++ c :: tail) =
      match skipGap (c :: tail) with
      | '}' :: left => .ok (done ++ [member], left)
      | ',' :: more => readMembers fuel depth (done ++ [member]) (skipGap more)
      | other => refuse .expectedComma other := by
  have key (opened : Nat) := readText_escaped opened member.1.toList
    (':' :: ' ' :: (written member.2 ++ c :: tail))
  have colon : skipGap (':' :: ' ' :: (written member.2 ++ c :: tail)) =
      ':' :: ' ' :: (written member.2 ++ c :: tail) := rfl
  have value : skipGap (' ' :: (written member.2 ++ c :: tail)) = written member.2 ++ c :: tail := by
    have alone : ∀ part ∈ [written member.2], part.head?.any opensValue = true :=
      List.forall_mem_singleton.mpr reads.opens
    simpa [joined] using skipGap_joined (by simp) alone (c :: tail)
  have long : (written member.2).length ≤ fuel := by
    simp only [writtenMember, List.length_append, List.length_cons] at enough
    omega
  have read := reads.reads fuel (c :: tail) long (endsNumber_cons ends tail)
  have grown : Members.put (String.ofList member.1.toList) member.2 done = done ++ [member] := by
    rw [String.ofList_toList, Members.put_of_fresh fresh]
  simp only [writtenMember, toList_writeText, List.cons_append, List.append_assoc,
    List.nil_append, readMembers, key, bind, Except.bind, colon, value, read,
    grown]
  rfl

/-- Members are read one after the other, behind those that were read before. -/
theorem readMembers_joined {depth : Nat} {members done : Members} (some : members ≠ [])
    (each : ∀ member ∈ members, ReadsBack depth member.2)
    (distinct : ((done ++ members).map (·.1)).Nodup) {fuel : Nat}
    (enough : (joined (members.map writtenMember)).length < fuel) (left : List Char) :
    readMembers fuel depth done (joined (members.map writtenMember) ++ '}' :: left) =
      .ok (done ++ members, left) := by
  induction members generalizing done fuel with
  | nil => exact absurd rfl some
  | cons member rest ih =>
      obtain ⟨fuel, rfl⟩ : ∃ less, fuel = less + 1 := ⟨fuel - 1, by omega⟩
      obtain ⟨first, others⟩ := List.forall_mem_cons.mp each
      have fresh : member.1 ∉ done.map (·.1) := by
        intro known
        rw [List.map_append, List.nodup_append] at distinct
        exact distinct.2.2 _ known _ List.mem_cons_self rfl
      by_cases last : rest = []
      · subst last
        have only : joined ([member].map writtenMember) = writtenMember member := by simp [joined]
        rw [only] at enough ⊢
        rw [readMembers_member fresh first (by omega) (by decide)]
        rfl
      · have more : rest.map writtenMember ≠ [] := by simpa using last
        rw [List.map_cons, joined_cons _ more] at enough ⊢
        simp only [List.length_append, List.length_cons] at enough
        have opens := skipGap_joined more (opens_of_mem_writtenMember rest) ('}' :: left)
        have later := @ih (done ++ [member]) last others (by simpa using distinct) fuel (by omega)
        rw [List.append_assoc, List.cons_append, List.cons_append,
          readMembers_member fresh first (by omega) (by decide)]
        have here : skipGap (',' :: ' ' :: (joined (rest.map writtenMember) ++ '}' :: left)) =
          ',' :: ' ' :: (joined (rest.map writtenMember) ++ '}' :: left) := rfl
        simp only [here, opens, later, List.append_assoc, List.singleton_append]

theorem readsBack_object {depth : Nat} {members : Members}
    (distinct : (members.map (·.1)).Nodup)
    (each : ∀ member ∈ members, ReadsBack depth member.2) :
    ReadsBack (depth + 1) (.object members) := by
  refine ⟨?_, by simp [written_object, opensValue, isGap], fun fuel rest enough _ => ?_⟩
  · rw [written_object]
    refine isPlain_enclosed rfl rfl (List.forall_mem_map.mpr fun member isMember => ?_)
    exact List.forall_mem_append.mpr ⟨isPlain_writeText member.1,
      List.forall_mem_cons.mpr ⟨rfl, List.forall_mem_cons.mpr ⟨rfl, (each member isMember).plain⟩⟩⟩
  rw [written_object, List.length_cons, List.length_append] at enough
  obtain ⟨fuel, rfl⟩ : ∃ less, fuel = less + 1 := ⟨fuel - 1, by omega⟩
  rw [written_object, List.cons_append, List.append_assoc, List.singleton_append]
  by_cases none : members = []
  · subst none
    rfl
  · have more : members.map writtenMember ≠ [] := by simpa using none
    have opens := opens_joined more (opens_of_mem_writtenMember members) ('}' :: rest)
    have reads := @readMembers_joined depth members [] none each distinct fuel
      (by simp at enough; omega) rest
    rw [readValue_object opens, reads]
    rfl

/-- A whole text is read as the value that it was written for. -/
theorem readAll_written {value : Value} (reads : ReadsBack depthLimit value) :
    readAll (written value) = .ok value := by
  have read := reads.reads ((written value).length + 1) [] (by omega) (by simp [EndsNumber])
  have noMark : ((written value).head? == some (Char.ofNat 0xFEFF)) = false := by
    have opens := reads.opens
    rw [beq_eq_false_iff_ne]
    intro marked
    rw [marked] at opens
    cases opens
  rw [List.append_nil] at read
  simp only [readAll, noMark, skipGap_of_opens reads.opens, read, bind, Except.bind]
  rfl

end Json

end Tracemark
