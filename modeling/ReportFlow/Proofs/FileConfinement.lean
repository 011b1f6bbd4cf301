import Mathlib.Data.List.Nodup
import Mathlib.Data.Set.Function
import ReportFlow.Proofs.FileNames
import ReportFlow.Store.Directory

/-!
Where the files of a directory store lie. Whatever the id, the name of its file is one part of a path,
so the path of the file leads into the directory and stops there; and two ids share a file only when
they look alike and have one hash.
-/

namespace ReportFlow

namespace Path

/-- The names on the way from the root to a place, last one first. -/
abbrev Place := List (List Char)

/-- An empty part and `.` stay where they are, `..` leads back. -/
def step (place : Place) (part : List Char) : Place :=
  if part = [] ∨ part = ['.'] then place
  else if part = ['.', '.'] then place.tail
  else part :: place

/-- Where a path leads from a place. One that begins with a separator leads from the root. -/
def walk (place : Place) (path : String) : Place :=
  (path.toList.splitOn '/').foldl step (if path.toList.head? = some '/' then [] else place)

structure IsEntry (name : String) : Prop where
  one : '/' ∉ name.toList
  nonempty : name.toList ≠ []
  notHere : name.toList ≠ ['.']
  notBack : name.toList ≠ ['.', '.']

theorem IsEntry.step {name : String} (h : IsEntry name) (place : Place) :
    step place name.toList = name.toList :: place := by
  rw [Path.step, if_neg (not_or.mpr ⟨h.nonempty, h.notHere⟩), if_neg h.notBack]

theorem splitOn_append_sep {before last : List Char} (h : '/' ∉ last) :
    (before ++ '/' :: last).splitOn '/' = before.splitOn '/' ++ [last] := by
  have hlast : last.splitOn '/' = [last] := List.splitOn_eq_singleton h
  rw [← hlast]
  exact List.splitOnP_append_cons before last (beq_self_eq_true '/')

theorem walk_append_sep {path longer : String} {before last : List Char} (h : '/' ∉ last)
    (hlonger : longer.toList = before ++ '/' :: last) (hhead : longer.toList.head? = path.toList.head?)
    (place : Place) :
    walk place longer = step ((before.splitOn '/').foldl step
      (if path.toList.head? = some '/' then [] else place)) last := by
  rw [walk, hhead, hlonger, splitOn_append_sep h, List.foldl_append]
  rfl

theorem head?_append {path : String} (hne : path ≠ "") (more : String) :
    (path ++ more).toList.head? = path.toList.head? := by
  have hcons : path.toList ≠ [] := mt String.toList_eq_nil_iff.mp hne
  rw [String.toList_append, List.head?_append, Option.or_of_isSome (by simpa using hcons)]

/-- What is added behind a separator is one step from where the path leads. -/
theorem walk_append {path name : String} (hsep : ∃ before, path.toList = before ++ ['/'])
    (h : '/' ∉ name.toList) (place : Place) :
    walk place (path ++ name) = step (walk place path) name.toList := by
  obtain ⟨before, hbefore⟩ := hsep
  have hne : path ≠ "" := by
    rintro rfl
    exact List.append_ne_nil_of_right_ne_nil before (List.cons_ne_nil '/' []) hbefore.symm
  have hlonger : (path ++ name).toList = before ++ '/' :: name.toList := by
    rw [String.toList_append, hbefore, List.append_assoc]
    rfl
  rw [walk_append_sep h hlonger (head?_append hne name),
    walk_append_sep List.not_mem_nil hbefore (rfl : path.toList.head? = path.toList.head?)]
  rfl

/-- A separator at the end leads no further. -/
theorem walk_append_slash {path : String} (hne : path ≠ "") (place : Place) :
    walk place (path ++ "/") = walk place path := by
  have hlonger : (path ++ "/").toList = path.toList ++ ['/'] := String.toList_append
  rw [walk_append_sep List.not_mem_nil hlonger (head?_append hne "/")]
  rfl

/-- A path that was made for an entry leads one step further than the path it was made from. -/
theorem walk_entryPath {name : String} (h : IsEntry name) (place : Place) (path : String) :
    walk place (DirectoryStore.entryPath path name) = name.toList :: walk place path := by
  unfold DirectoryStore.entryPath
  split
  next hends =>
    rcases Bool.or_eq_true_iff.mp hends with hempty | hsep
    · obtain rfl : path = "" := String.isEmpty_iff.mp hempty
      have hhead : name.toList.head? ≠ some '/' := fun heq => h.one (List.mem_of_mem_head? heq)
      rw [String.empty_append, walk, if_neg hhead, List.splitOn_eq_singleton h.one]
      exact h.step place
    · rw [String.endsWith, String.Slice.endsWith_string_iff, String.copy_toSlice] at hsep
      obtain ⟨before, hbefore⟩ := hsep
      rw [walk_append ⟨before, hbefore.symm⟩ h.one, h.step]
  next hends =>
    have hne : path ≠ "" := by
      rintro rfl
      exact hends rfl
    have hsep : (path ++ "/").toList = path.toList ++ ['/'] := String.toList_append
    rw [walk_append ⟨path.toList, hsep⟩ h.one, walk_append_slash hne, h.step]

end Path

namespace FileName

def InStem (c : Char) : Prop := c.isAlphanum = true ∨ c = '-' ∨ c = '_' ∨ c = '.' ∨ c = mark

theorem inStem_of_isPlain {c : Char} (h : isPlain c = true) : InStem c := by
  simp only [isPlain, Bool.or_eq_true, decide_eq_true_eq] at h
  unfold InStem
  tauto

theorem isAlphanum_digitChar {n : Nat} (h : n < 16) : (Nat.digitChar n).isAlphanum = true := by
  have hall : ∀ n < 16, (Nat.digitChar n).isAlphanum = true := by decide
  exact hall n h

theorem isAlphanum_of_mem_hash {id : String} {c : Char} (h : c ∈ hash id) : c.isAlphanum = true := by
  have hword : ∀ w, c ∈ Blake3.wordHex w → c.isAlphanum = true := by
    intro w hw
    obtain ⟨b, _, hb⟩ := List.mem_flatMap.mp hw
    have hbyte : b.toNat < 256 := b.toNat_lt
    simp only [Blake3.hexByte, List.mem_cons, List.not_mem_nil, or_false] at hb
    rcases hb with rfl | rfl
    · exact isAlphanum_digitChar (by omega)
    · exact isAlphanum_digitChar (by omega)
  exact (List.mem_append.mp h).elim (hword _) (hword _)

theorem inStem_of_mem_stem {id : String} {c : Char} (h : c ∈ (stem id).toList) : InStem c := by
  by_cases hplain : id.toList.all isPlain = true
  · rw [stem_plain hplain] at h
    exact inStem_of_isPlain (List.all_eq_true.mp hplain c h)
  · rw [toList_stem_other hplain, List.mem_append, List.mem_cons] at h
    rcases h with h | rfl | h
    · obtain ⟨x, -, rfl⟩ := List.mem_map.mp h
      split
      · exact inStem_of_isPlain ‹_›
      · exact .inr (.inr (.inl rfl))
    · exact .inr (.inr (.inr (.inr rfl)))
    · exact .inl (isAlphanum_of_mem_hash h)

/-- The ending keeps the name of a file from being one of the names that mean another place. -/
theorem isEntry_ofId (id : String) : Path.IsEntry (ofId id) := by
  have hchars : (ofId id).toList = (stem id).toList ++ ending.toList := String.toList_append
  have hlong : 4 < (ofId id).toList.length := by
    rw [hchars, List.length_append]
    exact Nat.lt_add_left _ (by decide)
  refine ⟨?_, ?_, ?_, ?_⟩
  · rw [hchars]
    intro hmem
    rcases List.mem_append.mp hmem with hstem | hending
    · exact absurd (inStem_of_mem_stem hstem) (by unfold InStem; decide)
    · exact absurd hending (by decide)
  · rintro hnil
    simp [hnil] at hlong
  · rintro hdot
    simp [hdot] at hlong
  · rintro hdots
    simp [hdots] at hlong

/-- The names of files are made of a few harmless characters, and each leads from the directory to an
entry of it. The ids that share a file are just those that look alike and have one hash, so among ids
whose hashes differ each has a file of its own. -/
theorem files_inside_and_apart {ids : Set String} (hhash : Set.InjOn hash ids) :
    (∀ id, ∀ c ∈ (stem id).toList, InStem c) ∧
    (∀ id, Path.IsEntry (ofId id) ∧ ∀ (s : DirectoryStore) (place : Path.Place),
      Path.walk place (s.pathOf (ofId id)) = (ofId id).toList :: Path.walk place s.path) ∧
    (∀ a b, stem a = stem b ↔ a = b ∨ Collide a b) ∧
    Set.InjOn stem ids ∧ Set.InjOn ofId ids := by
  refine ⟨?_, ?_, ?_, ?_, ?_⟩
  · intro id c hc
    exact inStem_of_mem_stem hc
  · intro id
    exact ⟨isEntry_ofId id, fun s place => Path.walk_entryPath (isEntry_ofId id) place s.path⟩
  · intro a b
    exact stem_eq_stem_iff
  · intro a ha b hb heq
    exact stem_injective (hhash ha hb) heq
  · intro a ha b hb heq
    exact ofId_injective (hhash ha hb) heq

/-- Ids that look alike once their characters are replaced, the stem of one of them, and one that as a
part of a path would lead back. -/
def lookalikes : List String := ["a/b", "a?b", "a_b", "a_b~0da3cfa5f8b7fae9", ".."]

/-- An id that is the stem of another one has a file of its own. -/
theorem files_inside_and_apart_lookalikes :
    Set.InjOn hash {id | id ∈ lookalikes} ∧
      stem "a/b" = "a_b~0da3cfa5f8b7fae9" ∧ stem "a/b" ≠ stem "a_b~0da3cfa5f8b7fae9" ∧
      Path.walk [] (DirectoryStore.entryPath "var/reports" (ofId "..")) =
        ["...json".toList, "reports".toList, "var".toList] := by
  have hhash : Set.InjOn hash {id | id ∈ lookalikes} := by
    have hdistinct : (lookalikes.map hash).Nodup := by decide +kernel
    exact fun a ha b hb heq => List.inj_on_of_nodup_map hdistinct ha hb heq
  obtain ⟨_, hentry, _, hstem, _⟩ := files_inside_and_apart hhash
  refine ⟨hhash, by decide +kernel, ?_, ?_⟩
  · intro heq
    have hsame := hstem (by decide : "a/b" ∈ lookalikes) (by decide) heq
    exact absurd hsame (by decide)
  · exact ((hentry "..").2 (.atPath "var/reports" (.sound .absent)) []).trans (by decide +kernel)

end FileName

end ReportFlow
