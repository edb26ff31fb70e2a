import TraceSearch.Json.Literal
import TraceSearch.Json.Printer

/-!
# Layouts

A value may be written with blanks before its items and after its colons, or without. Main facts:
`enclose_tight` and `enclose_lines`, the compact and the pretty notation of a list are its texts in
two layouts.
-/

namespace TraceSearch.Json

theorem isBlank_of_mem_newLine {level : Nat} {c : Char} (h : c ∈ newLine level) :
    isBlank c = true := by
  rcases List.mem_cons.1 h with rfl | h
  · rfl
  · rw [List.eq_of_mem_replicate h]
    rfl

/-- The blanks of a written value: before each item of a level, and after a colon. -/
structure Layout where
  gap : Nat → List Char
  colon : List Char
  isBlank_gap : ∀ level, ∀ c ∈ gap level, isBlank c = true
  isBlank_colon : ∀ c ∈ colon, isBlank c = true

namespace Layout

/-- Without blanks. -/
def tight : Layout := ⟨fun _ => [], [], by simp, by simp⟩

/-- Each item on a line of its own. -/
def lines : Layout :=
  ⟨newLine, [' '], fun _ _ hc => isBlank_of_mem_newLine hc,
    fun _ hc => List.mem_singleton.1 hc ▸ rfl⟩

/-- Texts between brackets. -/
def enclose (l : Layout) (level : Nat) (opening closing : Char) (parts : List (List Char)) :
    List Char :=
  if parts.isEmpty then [opening, closing]
  else
    opening :: l.gap (level + 1) ++ List.intercalate (',' :: l.gap (level + 1)) parts ++
      l.gap level ++ [closing]

def member (l : Layout) (name : String) (value : List Char) : List Char :=
  stringText name ++ ':' :: (l.colon ++ value)

theorem enclose_tight (level : Nat) (opening closing : Char) (parts : List (List Char)) :
    tight.enclose level opening closing parts = bracketed opening closing parts := by
  cases parts <;> simp [enclose, tight, bracketed, List.intercalate]

theorem enclose_lines (level : Nat) (opening closing : Char) (parts : List (List Char)) :
    lines.enclose level opening closing parts = spread level opening closing parts := rfl

end Layout

end TraceSearch.Json
