import Scriptlet.Report

/-!
# The lines that a report shows

Split at its line feeds, a window is the lines near the one asked for, each with its number before
it. No number and no line has a line feed in it, so nothing else is a line of the window, and only the
line asked for starts with the mark. The lines near a line are a stretch of the text, cut off at its
ends (`near_eq_drop_take`), so the window shows that stretch and nothing else (`window_exact`).
-/

namespace Scriptlet

namespace Text

/-- Only line feeds end lines, so a text that ends in one has an empty last line. -/
theorem lines_eq_splitOn (text : List Char) : lines text = text.splitOn '\n' := by
  induction text with
  | nil => rfl
  | cons c cs ih =>
    rw [List.splitOn_cons_eq_if_modifyHead, lines, ← ih]
    by_cases hc : c = '\n'
    · simp [hc]
    · rw [if_neg hc, if_neg (by simpa using hc)]
      cases h : lines cs with
      | nil => exact absurd (h ▸ length_lines cs) (by simp)
      | cons line rest => rfl

theorem newline_not_mem_of_mem_lines {text line : List Char} (h : line ∈ lines text) :
    '\n' ∉ line := by
  induction text generalizing line with
  | nil =>
    rw [List.mem_singleton.1 h]
    exact List.not_mem_nil
  | cons c cs ih =>
    rw [lines] at h
    by_cases hc : c = '\n'
    · rw [if_pos hc] at h
      rcases List.mem_cons.1 h with rfl | h
      · exact List.not_mem_nil
      · exact ih h
    · rw [if_neg hc] at h
      cases hcs : lines cs with
      | nil => exact absurd (hcs ▸ length_lines cs) (by simp)
      | cons head rest =>
        rw [hcs] at h ih
        rcases List.mem_cons.1 h with rfl | h
        · exact List.not_mem_cons_of_ne_of_not_mem (Ne.symm hc) (ih List.mem_cons_self)
        · exact ih (List.mem_cons_of_mem _ h)

/-- A natural number is written in digits. -/
theorem isDigit_of_mem_repr {n : Nat} {c : Char} (h : c ∈ n.repr.toList) : c.isDigit = true := by
  rw [Nat.repr_eq_ofList_toDigits, String.toList_ofList] at h
  exact Nat.isDigit_of_mem_toDigits (by decide) (by decide) h

/-- An integer is written in digits, with a sign before them if it is negative. -/
theorem mem_toString {n : Int} {c : Char} (h : c ∈ (toString n).toList) :
    c = '-' ∨ c.isDigit = true := by
  cases n with
  | ofNat n => exact .inr (isDigit_of_mem_repr h)
  | negSucc n =>
    rw [Int.toString_eq_repr, Int.repr, String.toList_append, List.mem_append] at h
    rcases h with h | h
    · exact .inl (List.mem_singleton.1 h)
    · exact .inr (isDigit_of_mem_repr h)

theorem newline_not_mem_toString (n : Int) : '\n' ∉ (toString n).toList := by
  intro h
  exact absurd (mem_toString h) (by decide)

end Text

namespace Report

variable {source : String} {line size : Int}

theorem toList_markedLine (asked number : Int) (text : List Char) :
    (markedLine asked number text).toList =
      (if number = asked then '>' else ' ') ::
        ((Text.flushRight 5 (toString number)).toList ++ ": ".toList ++ text) := by
  unfold markedLine
  split <;> simp

/-- A line of a window is one line, since neither the number nor the text brings a line feed in. -/
theorem newline_not_mem_markedLine {asked number : Int} {text : List Char} (h : '\n' ∉ text) :
    '\n' ∉ (markedLine asked number text).toList := by
  have hnumber : '\n' ∉ (Text.flushRight 5 (toString number)).toList := by
    rw [Text.flushRight, String.toList_append, String.toList_ofList, List.mem_append]
    rintro (hmem | hmem)
    · exact absurd (List.eq_of_mem_replicate hmem) (by decide)
    · exact Text.newline_not_mem_toString _ hmem
  rw [toList_markedLine]
  simp only [List.mem_cons, List.mem_append, not_or]
  refine ⟨?_, ⟨hnumber, by decide⟩, h⟩
  split <;> decide

/-- The lines of a text that are within `size` of a line, with how many come before each. -/
def near (source : String) (line size : Int) : List (List Char × Nat) :=
  (Text.lines source.toList).zipIdx.filter fun (_, index) =>
    line - size - 1 ≤ index ∧ index < line + size

/-- A line number up to the count of line feeds and one has a line. -/
theorem getElem?_lines (hpos : 1 ≤ line) (hle : line ≤ source.toList.count '\n' + 1) :
    ∃ text, (Text.lines source.toList)[(line - 1).toNat]? = some text := by
  have hlength := Text.length_lines source.toList
  exact ⟨_, List.getElem?_eq_getElem (by omega)⟩

/-- The elements whose numbers lie between two bounds are a stretch of the list. -/
theorem filter_zipIdx_between {α : Type} (l : List α) (n low high : Nat) :
    (l.zipIdx n).filter (fun entry => low ≤ entry.2 ∧ entry.2 < high) =
      ((l.zipIdx n).take (high - n)).drop (low - n) := by
  induction l generalizing n with
  | nil => simp
  | cons a l ih =>
    rw [List.zipIdx_cons]
    by_cases hhigh : n < high
    · rw [show high - n = (high - (n + 1)) + 1 by omega, List.take_succ_cons]
      by_cases hlow : low ≤ n
      · have hnone : low - (n + 1) = 0 := by omega
        rw [List.filter_cons_of_pos (by simp [hlow, hhigh]), ih, hnone, Nat.sub_eq_zero_of_le hlow]
        rfl
      · rw [List.filter_cons_of_neg (by simp [hlow]), ih,
          show low - n = (low - (n + 1)) + 1 by omega, List.drop_succ_cons]
    · rw [Nat.sub_eq_zero_of_le (Nat.le_of_not_lt hhigh), List.take_zero, List.drop_nil,
        List.filter_eq_nil_iff]
      rintro ⟨x, i⟩ hmem
      rw [← List.zipIdx_cons] at hmem
      have hle := List.le_snd_of_mem_zipIdx hmem
      simp only [decide_eq_true_eq]
      omega

theorem filter_zipIdx_eq {α : Type} {a : α} {k : Nat} (l : List α) (n : Nat) (h : l[k]? = some a) :
    (l.zipIdx n).filter (fun entry => entry.2 = n + k) = [(a, n + k)] := by
  have hbetween := filter_zipIdx_between l n (n + k) (n + k + 1)
  have hentry : (l.zipIdx n)[k]? = some (a, n + k) := by
    rw [List.getElem?_zipIdx, h]
    rfl
  have hlength : ((l.zipIdx n).take k).length = k :=
    List.length_take_of_le (Nat.le_of_lt (List.getElem?_eq_some_iff.1 hentry).1)
  rw [show n + k + 1 - n = k + 1 by omega, Nat.add_sub_cancel_left, List.take_add_one, hentry,
    List.drop_left' hlength] at hbetween
  rw [← Option.toList_some, ← hbetween]
  apply List.filter_congr
  rintro ⟨x, i⟩ -
  simp only [decide_eq_decide]
  omega

/-- Of the lines near a line, one is that line. -/
theorem filter_near {text : List Char} (hpos : 1 ≤ line) (hsize : 0 ≤ size)
    (htext : (Text.lines source.toList)[(line - 1).toNat]? = some text) :
    (near source line size).filter (fun entry => (entry.2 + 1 : Int) = line) =
      [(text, (line - 1).toNat)] := by
  have hone := filter_zipIdx_eq (Text.lines source.toList) 0 htext
  rw [Nat.zero_add] at hone
  rw [near, List.filter_filter, ← hone]
  apply List.filter_congr
  rintro ⟨other, index⟩ -
  rw [Bool.eq_iff_iff]
  simp only [Bool.and_eq_true, decide_eq_true_eq]
  omega

/-- Splitting the window at its line feeds gives the lines it was put together from. -/
theorem splitOn_window (hpos : 1 ≤ line)
    (hle : line ≤ source.toList.count '\n' + 1) (hsize : 0 ≤ size) :
    (window source line size).toList.splitOn '\n' =
      (near source line size).map fun entry => (markedLine line (entry.2 + 1) entry.1).toList := by
  have hlength := Text.length_lines source.toList
  obtain ⟨text, htext⟩ := getElem?_lines hpos hle
  have hshown : (text, (line - 1).toNat) ∈ near source line size := by
    have hmem := List.mem_singleton_self (text, (line - 1).toNat)
    rw [← filter_near hpos hsize htext] at hmem
    exact (List.mem_filter.1 hmem).1
  rw [window, if_neg (by omega), String.toList_intercalate, List.map_map]
  -- No lines at all would be split as one empty line.
  refine List.splitOn_intercalate '\n' ?_ ?_
  · intro shown hmem
    obtain ⟨entry, hentry, rfl⟩ := List.mem_map.1 hmem
    have hline := List.mk_mem_zipIdx_iff_getElem?.1 (List.mem_filter.1 hentry).1
    exact newline_not_mem_markedLine
      (Text.newline_not_mem_of_mem_lines (List.mem_of_getElem? hline))
  · intro hnil
    exact List.not_mem_nil (hnil ▸ List.mem_map_of_mem hshown)

/-- A window around a line of the text marks that line and no other. -/
theorem filter_splitOn_window {text : List Char} (hpos : 1 ≤ line)
    (hle : line ≤ source.toList.count '\n' + 1) (hsize : 0 ≤ size)
    (htext : (Text.lines source.toList)[(line - 1).toNat]? = some text) :
    ((window source line size).toList.splitOn '\n').filter (·.head? = some '>') =
      [(markedLine line line text).toList] := by
  have hmark : ∀ entry : List Char × Nat,
      (markedLine line (entry.2 + 1) entry.1).toList.head? = some '>' ↔ (entry.2 + 1 : Int) = line := by
    intro entry
    rw [toList_markedLine, List.head?_cons]
    split <;> simp [*]
  have hnumber : (((line - 1).toNat : Nat) : Int) + 1 = line := by omega
  rw [splitOn_window hpos hle hsize, List.filter_map]
  simp only [Function.comp_def, hmark, filter_near hpos hsize htext, List.map_cons, List.map_nil,
    hnumber]

/-! ## The stretch of lines that is shown -/

/-- The lines near a line are a stretch of the text. It may reach beyond either end, where there is
nothing to take or to drop. -/
theorem near_eq_drop_take (hpos : 1 ≤ line) (hsize : 0 ≤ size) :
    near source line size =
      ((Text.lines source.toList).zipIdx.take (line + size).toNat).drop (line - size - 1).toNat := by
  have hbetween := filter_zipIdx_between (Text.lines source.toList) 0 (line - size - 1).toNat
    (line + size).toNat
  rw [Nat.sub_zero, Nat.sub_zero] at hbetween
  rw [near, ← hbetween]
  apply List.filter_congr
  rintro ⟨text, index⟩ -
  simp only [decide_eq_decide]
  omega

/-- There is nothing to show for a line that is not in the text or for a negative size. -/
theorem window_eq_empty (h : line < 1 ∨ (Text.lines source.toList).length < line ∨ size < 0) :
    window source line size = "" := by
  by_cases hline : line < 1 ∨ (Text.lines source.toList).length < line
  · exact if_pos hline
  · have hsize : size < 0 := by omega
    have hnone : near source line size = [] := by
      rw [near, List.filter_eq_nil_iff]
      rintro ⟨text, index⟩ -
      simp only [decide_eq_true_eq]
      omega
    unfold window
    dsimp only
    rw [if_neg hline]
    unfold near at hnone
    rw [hnone]
    rfl

/-- A numbered line of a text as a window shows it: a mark, which is an angle bracket on the line
asked for, the number flush right in five columns, and the text of the line. -/
def shown (asked : Int) (number : Nat) (text : List Char) : List Char :=
  let digits := (toString number).toList
  (if (number : Int) = asked then '>' else ' ') ::
    (List.replicate (5 - digits.length) ' ' ++ digits ++ [':', ' '] ++ text)

theorem toList_markedLine_eq_shown (asked : Int) (index : Nat) (text : List Char) :
    (markedLine asked (index + 1) text).toList = shown asked (index + 1) text := by
  have hnumber : toString ((index : Int) + 1) = toString (index + 1) := rfl
  rw [toList_markedLine, hnumber, Text.flushRight, String.toList_append, String.toList_ofList]
  rfl

/-- A window is exact. It is empty if the text has no such line or the size is negative. Otherwise its
lines are those of the text from `size` before the line asked for to `size` after it, as far as
there are any, in their order. -/
theorem window_exact (source : String) (line size : Int) :
    let lines := source.toList.splitOn '\n'
    let first := max 1 (line - size)
    let last := min (lines.length : Int) (line + size)
    if line < 1 ∨ lines.length < line ∨ size < 0 then window source line size = ""
    else (window source line size).toList.splitOn '\n' =
      (((lines.zipIdx 1).take last.toNat).drop (first - 1).toNat).map fun (text, number) =>
        shown line number text := by
  intro lines first last
  have hlines : lines = Text.lines source.toList := (Text.lines_eq_splitOn _).symm
  have hlength := Text.length_lines source.toList
  rw [← hlines] at hlength
  split
  · next hnone =>
    rw [hlines] at hnone
    exact window_eq_empty hnone
  · next hsome =>
    have hnumbers : lines.zipIdx 1 = lines.zipIdx.map fun (text, index) => (text, index + 1) :=
      List.zipIdx_succ
    have hlast : lines.zipIdx.take last.toNat = lines.zipIdx.take (line + size).toNat := by
      rw [List.take_eq_take_iff, List.length_zipIdx]
      omega
    have hfirst : (first - 1).toNat = (line - size - 1).toNat := by omega
    rw [splitOn_window (by omega) (by omega) (by omega), near_eq_drop_take (by omega) (by omega),
      ← hlines, hnumbers, ← List.map_take, ← List.map_drop, List.map_map, hlast, hfirst]
    apply List.map_congr_left
    rintro ⟨text, index⟩ -
    exact toList_markedLine_eq_shown line index text

end Report

end Scriptlet
