import Tracemark.Git.WebLink
import Tracemark.Proofs.Result
import Tracemark.Proofs.Url.Percent

/-!
# What links tell

On the hosts that have pages for files, a link is a part that depends on the remote and
the revision, the path of the file, and the number of the line. The last two can be read
off the link.
-/

set_option autoImplicit false

namespace Tracemark.Git

def Remote.HasPages (remote : Remote) : Prop :=
  remote.host = .github ∨ remote.host = .gitlab

theorem Remote.HasPages.exists_linkBase {remote : Remote} (pages : remote.HasPages)
    (revision : String) : ∃ base, linkBase? remote revision = some base := by
  unfold linkBase?
  rcases pages with host | host <;> rw [host] <;> exact ⟨_, rfl⟩

theorem toList_linkTo (base : String) (path : List Char) (line : String) :
    (linkTo base path line).toList =
      base.toList ++ (Url.Percent.encode path ++ '#' :: 'L' :: line.toList) := by
  simp [linkTo, toString]

/-- Links with the same beginning are to the same line of the same path. -/
theorem linkTo_inj {base : String} {left right : List Char} {line other : String}
    (same : linkTo base left line = linkTo base right other) : left = right ∧ line = other := by
  have tails : Url.Percent.encode left ++ '#' :: 'L' :: line.toList =
      Url.Percent.encode right ++ '#' :: 'L' :: other.toList := by
    have characters := congrArg String.toList same
    rw [toList_linkTo, toList_linkTo] at characters
    exact List.append_cancel_left characters
  -- The path ends at the first number sign.
  have beforeSign (path tail : List Char) :
      (Url.Percent.encode path ++ '#' :: tail).takeWhile (· != '#') = Url.Percent.encode path := by
    rw [List.takeWhile_append_of_pos]
    · simp
    · intro c member
      refine bne_iff_ne.mpr ?_
      rintro rfl
      exact Url.Percent.hash_not_mem_encode path member
  have paths : Url.Percent.encode left = Url.Percent.encode right := by
    simpa only [beforeSign] using congrArg (List.takeWhile (· != '#')) tails
  rw [paths] at tails
  have lines : line.toList = other.toList := by
    simpa using List.append_cancel_left tails
  exact ⟨Url.Percent.encode_injective paths, String.toList_inj.mp lines⟩

/-- A link is made to a file below the project, and it is to the path from there. -/
theorem webLink_eq_ok [Libraries] {working project file : Path}
    {address revision line link base : String} {remote : Remote} {log : List Log.Record}
    (known : Libraries.remote? address.toList = some remote)
    (pages : remote.HasPages) (isBase : linkBase? remote revision = some base)
    (linked : webLink working address revision project file line = (log, .ok link)) :
    ∃ relative, (file.absolute working).relativeTo project = .ok relative ∧
      link = linkTo base relative.text.toList line := by
  have made : ((file.absolute working).relativeTo project).map
      (fun relative => linkTo base relative.text.toList line) = .ok link := by
    simp only [webLink, known, isBase] at linked
    rcases pages with host | host <;>
      (rw [host] at linked
       exact (Prod.mk.inj linked).2)
  obtain ⟨relative, below, isLink⟩ := Result.map_eq_ok_iff.mp made
  exact ⟨relative, below, isLink.symm⟩

end Tracemark.Git
