import Mathlib.Data.List.TakeWhile
import Tracemark.Proofs.Discovery.SourceFiles

/-!
# Comments at the beginning of data files

A data file begins with a comment when the first two bytes of one stand in it after a byte-order mark,
if there is one, and blank space. The discovery looks at a sample of the file only, so that it finds
the comment exactly when these two bytes lie within the sample.
-/

set_option autoImplicit false

namespace Tracemark.Discovery

def byteOrderMark : Bytes := [0xEF, 0xBB, 0xBF]

/-- The two bytes with which a comment begins. -/
def commentOpeners : List Bytes := [[0x2F, 0x2F], [0x2F, 0x2A]]

/-- The bytes of a file as far as the two with which its comment begins. -/
def IsOpening (opening : Bytes) : Prop :=
  ∃ mark blanks opener, opening = mark ++ (blanks ++ opener) ∧ mark ∈ [[], byteOrderMark] ∧
    (∀ byte ∈ blanks, isBlankByte byte = true) ∧ opener ∈ commentOpeners

theorem mem_commentOpeners {opener : Bytes} (member : opener ∈ commentOpeners) :
    ∃ byte, opener = [0x2F, byte] ∧ (byte = 0x2F ∨ byte = 0x2A) := by
  simp only [commentOpeners, List.mem_cons, List.not_mem_nil, or_false] at member
  rcases member with rfl | rfl
  · exact ⟨0x2F, rfl, .inl rfl⟩
  · exact ⟨0x2A, rfl, .inr rfl⟩

/-! ## Byte-order marks -/

theorem exists_mark (bytes : Bytes) :
    ∃ mark ∈ [[], byteOrderMark], bytes = mark ++ withoutMark bytes := by
  unfold withoutMark
  split
  · exact ⟨byteOrderMark, by simp, rfl⟩
  · exact ⟨[], by simp, rfl⟩

theorem withoutMark_of_head {bytes : Bytes} (other : bytes.head? ≠ some 0xEF) :
    withoutMark bytes = bytes := by
  unfold withoutMark
  split
  · exact absurd rfl other
  · rfl

theorem withoutMark_append {mark bytes : Bytes} (isMark : mark ∈ [[], byteOrderMark])
    (other : bytes.head? ≠ some 0xEF) : withoutMark (mark ++ bytes) = bytes := by
  simp only [List.mem_cons, List.not_mem_nil, or_false] at isMark
  rcases isMark with rfl | rfl
  · exact withoutMark_of_head other
  · rfl

/-! ## Openings -/

theorem IsOpening.exists_opener {opening : Bytes} (opens : IsOpening opening) (rest : Bytes) :
    ∃ opener ∈ commentOpeners,
      (withoutMark (opening ++ rest)).dropWhile isBlankByte = opener ++ rest := by
  obtain ⟨mark, blanks, opener, rfl, isMark, blank, isOpener⟩ := opens
  obtain ⟨byte, rfl, -⟩ := mem_commentOpeners isOpener
  have other : (blanks ++ [0x2F, byte] ++ rest).head? ≠ some 0xEF := by
    cases blanks with
    | nil => simp
    | cons first blanks =>
        intro same
        cases same
        exact absurd (blank 0xEF List.mem_cons_self) (by decide)
  refine ⟨_, isOpener, ?_⟩
  rw [List.append_assoc, withoutMark_append isMark other, List.append_assoc,
    List.dropWhile_append_of_pos blank, List.cons_append, List.dropWhile_cons_of_neg (by decide)]

theorem beginsWithComment_iff {bytes : Bytes} :
    beginsWithComment bytes = true ↔ ∃ opening, IsOpening opening ∧ opening <+: bytes := by
  constructor
  · intro begins
    obtain ⟨mark, isMark, divided⟩ := exists_mark bytes
    have blank : ∀ byte ∈ (withoutMark bytes).takeWhile isBlankByte, isBlankByte byte = true :=
      fun _ member => List.mem_takeWhile_imp member
    have found : ∃ opener ∈ commentOpeners, opener <+: (withoutMark bytes).dropWhile isBlankByte := by
      unfold beginsWithComment at begins
      split at begins
      · rename_i rest shape
        exact ⟨[0x2F, 0x2F], by decide, rest, shape.symm⟩
      · rename_i rest shape
        exact ⟨[0x2F, 0x2A], by decide, rest, shape.symm⟩
      · cases begins
    obtain ⟨opener, isOpener, rest, shape⟩ := found
    refine ⟨_, ⟨mark, _, opener, rfl, isMark, blank, isOpener⟩, rest, ?_⟩
    rw [List.append_assoc, List.append_assoc, shape, List.takeWhile_append_dropWhile, ← divided]
  · intro ⟨opening, opens, rest, whole⟩
    obtain ⟨opener, isOpener, shape⟩ := opens.exists_opener rest
    obtain ⟨byte, rfl, isByte⟩ := mem_commentOpeners isOpener
    rw [beginsWithComment, ← whole, shape]
    rcases isByte with rfl | rfl
    · rfl
    · rfl

/-- A file has one opening at most. -/
theorem IsOpening.unique {opening other content : Bytes} (opens : IsOpening opening)
    (otherOpens : IsOpening other) (begins : opening <+: content) (otherBegins : other <+: content) :
    opening = other := by
  obtain ⟨rest, rfl⟩ := begins
  obtain ⟨otherRest, same⟩ := otherBegins
  obtain ⟨opener, isOpener, shape⟩ := opens.exists_opener rest
  obtain ⟨otherOpener, isOtherOpener, otherShape⟩ := otherOpens.exists_opener otherRest
  obtain ⟨byte, rfl, -⟩ := mem_commentOpeners isOpener
  obtain ⟨otherByte, rfl, -⟩ := mem_commentOpeners isOtherOpener
  rw [same, shape] at otherShape
  have rests : rest = otherRest := (List.append_inj otherShape rfl).2
  rw [rests] at same
  exact (List.append_cancel_right same).symm

/-- A data file is taken to begin with a comment exactly when the opening of a comment stands at its
beginning and within the sample. So the answer is wrong only for a file whose opening is longer than
the sample, and for each of these. -/
theorem opensWithComment_iff {store : Store} {path : Path} {content : Bytes}
    (found : store.read path = .ok content) :
    (opensWithComment store path = true ↔
      ∃ opening, IsOpening opening ∧ opening <+: content ∧ opening.length ≤ commentSampleSize) ∧
    ((opensWithComment store path = true ↔ ∃ opening, IsOpening opening ∧ opening <+: content) ↔
      ∀ opening, IsOpening opening → opening <+: content → opening.length ≤ commentSampleSize) := by
  have sampled : opensWithComment store path = true ↔
      ∃ opening, IsOpening opening ∧ opening <+: content ∧ opening.length ≤ commentSampleSize := by
    simp only [opensWithComment, found, beginsWithComment_iff, List.prefix_take_iff]
  refine ⟨sampled, ?_, ?_⟩
  · intro told opening opens begins
    obtain ⟨other, otherOpens, otherBegins, within⟩ := sampled.mp (told.mpr ⟨opening, opens, begins⟩)
    rw [opens.unique otherOpens begins otherBegins]
    exact within
  · intro within
    rw [sampled]
    refine exists_congr fun opening => and_congr_right fun opens => ?_
    exact and_iff_left_of_imp (within opening opens)

/-- Two bytes that end with the sample are found, and two that reach over its end are not. -/
theorem opensWithComment_iff_at_sample_end :
    let content (blanks : Nat) : Bytes := List.replicate blanks 0x20 ++ [0x2F, 0x2F]
    let store (blanks : Nat) : Store := ⟨⟨.absolute, []⟩, [(["a.json"], .file (content blanks))]⟩
    opensWithComment (store 254) (.ofText "/a.json") = true ∧
      opensWithComment (store 255) (.ofText "/a.json") = false ∧
      ∃ opening, IsOpening opening ∧ opening <+: content 255 := by
  intro content store
  have found : ∀ blanks, (store blanks).read (.ofText "/a.json") = .ok (content blanks) :=
    fun _ => rfl
  have opens : ∀ blanks, IsOpening (content blanks) := fun blanks =>
    ⟨[], List.replicate blanks 0x20, [0x2F, 0x2F], rfl, by simp, by simp [isBlankByte], by decide⟩
  have length : ∀ blanks, (content blanks).length = blanks + 2 := fun blanks => by simp [content]
  refine ⟨?_, ?_, _, opens 255, List.prefix_refl _⟩
  · exact (opensWithComment_iff (found 254)).1.mpr
      ⟨_, opens 254, List.prefix_refl _, (length 254).le⟩
  · rw [Bool.eq_false_iff]
    intro told
    have within := (opensWithComment_iff (found 255)).2.mp
      ⟨fun _ => ⟨_, opens 255, List.prefix_refl _⟩, fun _ => told⟩ _ (opens 255) (List.prefix_refl _)
    rw [length] at within
    exact absurd within (by decide)

end Tracemark.Discovery
