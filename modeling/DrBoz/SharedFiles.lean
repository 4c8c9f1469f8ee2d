-- The files of a directory that several runs share: their signatures, and what
-- writing and removing does to them.
import DrBoz.Lib.PosixPaths
import DrBoz.Py

open posix_paths

namespace dr_boz.shared_files

/-- A resolved path, as the names from the root. -/
abbrev Place := List Name

structure File where
  place : Place
  mtime_ns : Int
  size : Nat
deriving DecidableEq

/-- `_file_signature` -/
def File.signature (file : File) : Int × Nat := (file.mtime_ns, file.size)

/-- The signature of the file at a place, if there is one. -/
def signature_at (files : List File) (place : Place) : Option (Int × Nat) :=
  (files.find? fun file => file.place = place).map (·.signature)

/-- The files after one was written. -/
def put (files : List File) (file : File) : List File :=
  (files.filter fun f => f.place ≠ file.place) ++ [file]

def discard (files : List File) (place : Place) : List File :=
  files.filter fun f => f.place ≠ place

/-- `str(path)` of a resolved path. -/
def str (place : Place) : String := String.ofList (render 1 place)

/-- `path.suffix.lower()`. -/
def suffix_of (place : Place) : String :=
  String.ofList ((suffix (place.getLast?.getD [])).map Char.toLower)

/-! ## Signatures -/

theorem signature_at_filter (files : List File) (keep : Place → Bool) (place : Place) :
    signature_at (files.filter fun f => keep f.place) place =
      if keep place then signature_at files place else none := by
  unfold signature_at
  rw [List.find?_filter]
  by_cases h : keep place = true
  · rw [if_pos h]
    congr 2
    funext f
    by_cases hf : f.place = place
    · simp [hf, h]
    · simp [hf]
  · rw [if_neg h, Option.map_eq_none_iff, List.find?_eq_none]
    intro f _ hf
    simp only [decide_eq_true_eq] at hf
    rw [hf.2] at hf
    exact h hf.1

theorem signature_at_put (files : List File) (file : File) (place : Place) :
    signature_at (put files file) place =
      if place = file.place then some file.signature else signature_at files place := by
  have hkept := signature_at_filter files (fun p => decide (p ≠ file.place)) place
  have happend : signature_at (put files file) place =
      (signature_at (files.filter fun f => decide (f.place ≠ file.place)) place).or
        (signature_at [file] place) := by
    unfold signature_at put
    rw [List.find?_append, Option.map_or]
  rw [happend, hkept]
  by_cases h : place = file.place
  · simp [h, signature_at]
  · simp [h, Ne.symm h, signature_at]

theorem signature_at_discard (files : List File) (removed place : Place) :
    signature_at (discard files removed) place =
      if place = removed then none else signature_at files place := by
  have hkept := signature_at_filter files (fun p => decide (p ≠ removed)) place
  unfold discard
  rw [hkept]
  by_cases h : place = removed
  · simp [h]
  · simp [h]

theorem signature_at_ne_none {files : List File} {place : Place} :
    signature_at files place ≠ none ↔ ∃ file ∈ files, file.place = place := by
  unfold signature_at
  rw [ne_eq, Option.map_eq_none_iff, List.find?_eq_none]
  simp

end dr_boz.shared_files
