import Tracemark.Build.Directive
import Tracemark.Proofs.Path
import Tracemark.Proofs.Result

/-!
# Copies and pages of source files

The copy of a source file lies in the output directory as the file is seen from the directory
above its source directory, and its page has the same place without the suffix.
-/

set_option autoImplicit false

namespace Tracemark.Build

structure SourceFile where
  directory : Path
  file : Path
deriving Repr, DecidableEq

namespace SourceFile

/-- The path of the file from the directory above its source directory. The top directory
has none above it. -/
def seen (source : SourceFile) : Path :=
  ⟨.relative, source.file.parts.drop (source.directory.parts.length - 1)⟩

def copy (output : Path) (source : SourceFile) : Path :=
  output.join source.seen

/-- The file lies below its source directory and has a name. -/
structure IsBelow (source : SourceFile) : Prop where
  read : source.file.IsRead
  below : ∃ rest, source.file = ⟨source.directory.anchor, source.directory.parts ++ rest⟩
  named : source.seen.parts ≠ []

variable {source left right : SourceFile}

theorem IsBelow.seen_isRead (isBelow : source.IsBelow) : source.seen.IsRead :=
  fun part member => isBelow.read part (List.mem_of_mem_drop member)

/-- In one source directory, files that are seen alike are the same. -/
theorem IsBelow.file_of_seen (leftBelow : left.IsBelow) (rightBelow : right.IsBelow)
    (directories : left.directory = right.directory) (same : left.seen = right.seen) :
    left.file = right.file := by
  obtain ⟨leftRest, leftFile⟩ := leftBelow.below
  obtain ⟨rightRest, rightFile⟩ := rightBelow.below
  have parts := congrArg Path.parts same
  simp only [seen, leftFile, rightFile, directories] at parts
  rw [List.drop_append_of_le_length (Nat.sub_le _ _),
    List.drop_append_of_le_length (Nat.sub_le _ _)] at parts
  rw [leftFile, rightFile, directories, List.append_cancel_left parts]

theorem copy_isRead {output : Path} (outputRead : output.IsRead) (isBelow : source.IsBelow) :
    (source.copy output).IsRead :=
  isBelow.seen_isRead.absolute outputRead

theorem copy_eq (output : Path) (source : SourceFile) :
    source.copy output = ⟨output.anchor, output.parts ++ source.seen.parts⟩ := rfl

/-- Where the copies of files are tells how the files are seen. -/
theorem seen_of_copy {output : Path} (same : left.copy output = right.copy output) :
    left.seen = right.seen := by
  have parts := congrArg Path.parts same
  rw [copy_eq, copy_eq] at parts
  exact congrArg (Path.mk .relative) (List.append_cancel_left parts)

/-- The page has the place of the copy below the output directory, without the suffix. -/
theorem pageName_copy {output : Path} (outputRead : output.IsRead) (isBelow : source.IsBelow) :
    pageName output (source.copy output).text = .ok source.seen.withoutSuffix.text := by
  have below : (source.copy output).relativeTo output = .ok source.seen :=
    Path.relativeTo_eq_ok_iff.mpr ⟨rfl, copy_eq output source⟩
  rw [pageName, (copy_isRead outputRead isBelow).ofText_text, below]
  exact congrArg (Except.map Path.text)
    (isBelow.seen_isRead.withSuffix_empty isBelow.named)

end SourceFile

end Tracemark.Build
