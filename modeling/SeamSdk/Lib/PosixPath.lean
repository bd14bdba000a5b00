import Mathlib.Data.List.Basic

/-!
# Paths as `posixpath` takes them apart

A path is a list of characters. What `join` puts behind a directory is what `basename` finds again (`basename_join`).
-/

namespace PosixPath

/-- The last component: what stands behind the last slash. -/
def basename (p : List Char) : List Char := (p.reverse.takeWhile (· ≠ '/')).reverse

/-- What stands before the last component, without the slashes at its end unless there is nothing else. -/
def dirname (p : List Char) : List Char :=
  let head := (p.reverse.dropWhile (· ≠ '/')).reverse
  if head.all (· = '/') then head else (head.reverse.dropWhile (· = '/')).reverse

def join (a b : List Char) : List Char :=
  if b.head? = some '/' then b
  else if a = [] ∨ a.getLast? = some '/' then a ++ b
  else a ++ '/' :: b

/-- The pieces between slashes. -/
def components : List Char → List (List Char)
  | [] => [[]]
  | c :: p =>
    if c = '/' then [] :: components p
    else
      match components p with
      | [] => [[c]]
      | d :: ds => (c :: d) :: ds

/-- The loop of `normpath`, with the components that are kept in reverse. -/
def normalized (rooted : Bool) : List (List Char) → List (List Char) → List (List Char)
  | kept, [] => kept.reverse
  | kept, c :: cs =>
    if c = [] ∨ c = ['.'] then normalized rooted kept cs
    else if c ≠ ['.', '.'] ∨ (rooted = false ∧ kept = []) ∨ kept.head? = some ['.', '.'] then
      normalized rooted (c :: kept) cs
    else normalized rooted kept.tail cs

/-- A path begins with no slash, with one, or with two; three and more count as one. -/
def initialSlashes (p : List Char) : Nat :=
  match (p.takeWhile (· = '/')).length with
  | 0 => 0
  | 2 => 2
  | _ => 1

def normpath (p : List Char) : List Char :=
  let path := List.replicate (initialSlashes p) '/' ++
    List.intercalate ['/'] (normalized (initialSlashes p ≠ 0) [] (components p))
  if path = [] then ['.'] else path

def abspath (cwd p : List Char) : List Char := normpath (if p.head? = some '/' then p else join cwd p)

example : abspath "/home/a".toList "../b/./id.json".toList = "/home/b/id.json".toList := by decide

example : dirname "/home/b/id.json".toList = "/home/b".toList := by decide

/-! ## The last component -/

theorem slash_not_mem_basename (p : List Char) : '/' ∉ basename p := by
  intro h
  have hall := List.all_eq_true.mp List.all_takeWhile '/' (List.mem_reverse.mp h)
  simp at hall

/-- The last component is found behind nothing, or behind a slash. -/
theorem basename_append {a n : List Char} (hn : '/' ∉ n) (ha : a = [] ∨ a.getLast? = some '/') :
    basename (a ++ n) = n := by
  have hall : ∀ c ∈ n.reverse, decide (c ≠ '/') = true := by
    intro c hc
    rw [decide_eq_true_eq]
    rintro rfl
    exact hn (List.mem_reverse.mp hc)
  rw [basename, List.reverse_append, List.takeWhile_append_of_pos hall]
  rcases ha with rfl | ha
  · simp
  · obtain ⟨b, rfl⟩ : ∃ b, a = b ++ ['/'] := ⟨_, (List.dropLast_append_getLast? '/' ha).symm⟩
    simp

/-- **A name is found again behind its directory.** -/
theorem basename_join {n : List Char} (hn : '/' ∉ n) (a : List Char) : basename (join a n) = n := by
  have hhead : n.head? ≠ some '/' := by
    cases n with
    | nil => nofun
    | cons c n =>
      rw [List.head?_cons, ne_eq, Option.some.injEq]
      rintro rfl
      exact hn List.mem_cons_self
  rw [join, if_neg hhead]
  split
  · rename_i ha
    exact basename_append hn ha
  · rw [show a ++ '/' :: n = (a ++ ['/']) ++ n by simp]
    exact basename_append hn (.inr (by simp))

end PosixPath
