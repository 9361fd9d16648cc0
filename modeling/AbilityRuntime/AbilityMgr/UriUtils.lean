import Mathlib.Data.List.Basic

/-! The uris that a want takes to another device. -/

open List

namespace AbilityRuntime.UriUtils

structure Env where
  getScheme : List Char → String
  getPath : List Char → List Char
  isRelative : List Char → Bool
  isSymlink : List Char → Bool
  realpath : List Char → Option (List Char)
  checkUriAuthorization : ℕ → List Char → Bool

structure Want where
  flags : ℕ
  uris : List (List Char)
  deriving DecidableEq

def distributedFilesPath : List Char := "/data/storage/el2/distributedfiles/".toList

def maxUriCount : ℕ := 500

variable (env : Env) (want : Want)

def absolutePath (str : List Char) : Option (List Char) :=
  if env.isRelative str then env.realpath (env.getPath str) else some (env.getPath str)

def isDistributed (str : List Char) : Bool :=
  env.getScheme str = "file" && !env.isSymlink (env.getPath str) &&
    (absolutePath env str).any distributedFilesPath.isPrefixOf

def getUriListFromWantDms : List (List Char) :=
  if want.uris.length > maxUriCount then [] else want.uris.filter (isDistributed env)

def filterUriWithPermissionDms : Want :=
  -- `FLAG_AUTH_READ_URI_PERMISSION` and `FLAG_AUTH_WRITE_URI_PERMISSION`
  if want.flags &&& 3 = 0 then want
  else
    let uriVec := getUriListFromWantDms env want
    if uriVec = [] then { want with uris := uriVec }
    else
      let checkResult := uriVec.map (env.checkUriAuthorization want.flags)
      { want with uris := ((uriVec.zip checkResult).filter (·.2)).map (·.1) }

def enter (dirs : List (List Char)) (segment : List Char) : List (List Char) :=
  if segment = [] ∨ segment = ['.'] then dirs
  else if segment = ['.', '.'] then dirs.dropLast
  else dirs ++ [segment]

/-- The directories that a path leads through, `.` and `..` being resolved. -/
def resolve (path : List Char) : List (List Char) := (path.splitOn '/').foldl enter []

/-- Behind the directory, the rest of a path leads out of it. -/
def leadsOut (rest : List Char) : Prop :=
  ¬ resolve distributedFilesPath <+:
    (rest.splitOn '/').foldl enter (resolve distributedFilesPath)

def isKept (str : List Char) : Bool :=
  isDistributed env str && env.checkUriAuthorization want.flags str

structure Confined : Prop where
  kept : (filterUriWithPermissionDms env want).uris = want.uris.filter (isKept env want)
  under : ∀ str ∈ (filterUriWithPermissionDms env want).uris, ∃ path ∈ absolutePath env str,
    resolve distributedFilesPath <+: resolve path

lemma resolve_append_cons (dir rest : List Char) :
    resolve (dir ++ '/' :: rest) = (rest.splitOn '/').foldl enter (resolve dir) := by
  rw [resolve, splitOn_append_cons_self, foldl_append]
  rfl

lemma resolve_behind (rest : List Char) : resolve (distributedFilesPath ++ rest) =
    (rest.splitOn '/').foldl enter (resolve distributedFilesPath) := by
  obtain ⟨dir, hdir⟩ : ∃ dir, distributedFilesPath = dir ++ ['/'] :=
    ⟨distributedFilesPath.dropLast, by decide⟩
  rw [hdir, append_assoc, singleton_append, resolve_append_cons, resolve_append_cons]
  rfl

lemma under_iff {str : List Char} (h : isDistributed env str = true) :
    (∃ path ∈ absolutePath env str, resolve distributedFilesPath <+: resolve path) ↔
      ∀ rest, absolutePath env str = some (distributedFilesPath ++ rest) → ¬ leadsOut rest := by
  rw [isDistributed, Bool.and_eq_true, Option.any_eq_true] at h
  obtain ⟨-, path, hpath, hdir⟩ := h
  obtain ⟨rest, rfl⟩ := List.isPrefixOf_iff_prefix.mp hdir
  simp [hpath, leadsOut, resolve_behind]

lemma map_filter_zip_map {α : Type*} (p : α → Bool) (l : List α) :
    ((l.zip (l.map p)).filter (·.2)).map (·.1) = l.filter p := by
  have hzip : l.zip (l.map p) = l.map fun a => (a, p a) := by
    simpa using zip_map' (f := id) (g := p) (l := l)
  rw [hzip, filter_map, map_map]
  exact map_id _

lemma filterUri_eq (hflags : want.flags &&& 3 ≠ 0) : (filterUriWithPermissionDms env want).uris =
    (getUriListFromWantDms env want).filter (env.checkUriAuthorization want.flags) := by
  rw [filterUriWithPermissionDms, if_neg hflags]
  dsimp only
  split
  case isTrue hnil => rw [hnil]; rfl
  exact map_filter_zip_map _ _

lemma kept_iff : (filterUriWithPermissionDms env want).uris = want.uris.filter (isKept env want) ↔
    if want.flags &&& 3 = 0 then ∀ str ∈ want.uris, isKept env want str = true
    else want.uris.length > maxUriCount → ∀ str ∈ want.uris, isKept env want str = false := by
  split_ifs with hflags
  · rw [filterUriWithPermissionDms, if_pos hflags, eq_comm, filter_eq_self]
  · rw [filterUri_eq env want hflags, getUriListFromWantDms]
    split_ifs with hcount
    · simp [eq_comm (a := []), hcount]
    · refine iff_of_true ?_ fun h => absurd h hcount
      rw [filter_filter]
      exact filter_congr fun str _ => Bool.and_comm _ _

def plain : Env where
  getScheme _ := "file"
  getPath := id
  isRelative _ := false
  isSymlink _ := false
  realpath := some
  checkUriAuthorization _ _ := true

def outside : List Char := "/data/storage/el2/distributedfiles/../a".toList

end AbilityRuntime.UriUtils
