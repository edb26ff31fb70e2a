import Mathlib.Tactic.ByContra
import Mathlib.Tactic.SplitIfs
import TraceSearch.Host.Folder

/-!
# Storing and reading files

The place of a file depends on the folder only in whether a name of the right length is taken, so a
path leads to the same name before and after something is stored. Main facts: `contentOf_store`,
what is stored at a path is read back from it, and `contentOf_store_of_ne`, every other file stays
as it was.
-/

namespace TraceSearch.Host

/-- The place is that of a file, be it there or not. -/
def Place.IsEntry : Place → Prop
  | .file _ => True
  | .absent _ => True
  | _ => False

theorem Place.isEntry_file {name : String} : (Place.file name).IsEntry := trivial

theorem Place.isEntry_absent {name : String} : (Place.absent name).IsEntry := trivial

namespace Folder

section Lookup

variable {d : Folder} {name other : String} {bytes : ByteArray}

@[simp]
theorem lookup_put_self : (d.put name bytes).files.lookup name = some bytes := by
  simp [put]

theorem lookup_filter_of_ne {files : List (String × ByteArray)} (h : other ≠ name) :
    (files.filter fun f => f.1 != name).lookup other = files.lookup other := by
  induction files with
  | nil => rfl
  | cons f files ih =>
    obtain ⟨key, content⟩ := f
    by_cases hk : key = name
    · subst hk
      simpa [List.lookup_cons, beq_eq_false_iff_ne.2 h] using ih
    · simp only [List.filter_cons, bne_iff_ne, ne_eq, hk, not_false_eq_true, if_true,
        List.lookup_cons, ih]

theorem lookup_put_of_ne (h : other ≠ name) :
    (d.put name bytes).files.lookup other = d.files.lookup other := by
  simp only [put, List.lookup_cons, beq_eq_false_iff_ne.2 h, lookup_filter_of_ne h]

/-- A name of the right length is taken or free. -/
theorem named_cases (d : Folder) (name : String) :
    (∃ reason, d.named name = .nowhere reason) ∨ (name.utf8ByteSize ≤ nameLimit ∧
      (d.named name = .file name ∧ (d.files.lookup name).isSome = true ∨
        d.named name = .absent name ∧ d.files.lookup name = none)) := by
  unfold named
  split
  · exact .inl ⟨_, rfl⟩
  · rename_i hsize
    refine .inr ⟨Nat.le_of_not_lt hsize, ?_⟩
    split
    · rename_i htaken
      exact .inl ⟨rfl, htaken⟩
    · rename_i hfree
      exact .inr ⟨rfl, Option.not_isSome_iff_eq_none.1 hfree⟩

theorem named_eq_file_iff {s : String} : d.named s = .file name ↔
    s = name ∧ name.utf8ByteSize ≤ nameLimit ∧ (d.files.lookup name).isSome = true := by
  constructor
  · intro h
    obtain ⟨reason, hnowhere⟩ | ⟨hsize, ⟨hfile, htaken⟩ | ⟨habsent, -⟩⟩ := d.named_cases s
    · cases hnowhere.symm.trans h
    · cases hfile.symm.trans h
      exact ⟨rfl, hsize, htaken⟩
    · cases habsent.symm.trans h
  · rintro ⟨rfl, hsize, htaken⟩
    rw [named, if_neg (Nat.not_lt.2 hsize), if_pos htaken]

theorem of_named_eq_absent {s : String} (h : d.named s = .absent name) :
    s = name ∧ name.utf8ByteSize ≤ nameLimit ∧ d.files.lookup name = none := by
  obtain ⟨reason, hnowhere⟩ | ⟨hsize, ⟨hfile, -⟩ | ⟨habsent, hfree⟩⟩ := d.named_cases s
  · cases hnowhere.symm.trans h
  · cases hfile.symm.trans h
  · cases habsent.symm.trans h
    exact ⟨rfl, hsize, hfree⟩

theorem named_put_self (h : name.utf8ByteSize ≤ nameLimit) :
    (d.put name bytes).named name = .file name :=
  named_eq_file_iff.2 ⟨rfl, h, by simp⟩

/-- A file that is there stays there. -/
theorem named_put_of_file {s : String} (h : d.named s = .file other) :
    (d.put name bytes).named s = .file other := by
  obtain ⟨rfl, hsize, htaken⟩ := named_eq_file_iff.1 h
  refine named_eq_file_iff.2 ⟨rfl, hsize, ?_⟩
  by_cases hname : s = name
  · simp [hname]
  · rwa [lookup_put_of_ne hname]

end Lookup

section Following

variable {d d' : Folder} {p p' : Place}

theorem foldl_nowhere (d : Folder) (reason : FileError) (segments : List (List Char)) :
    segments.foldl d.step (.nowhere reason) = .nowhere reason := by
  induction segments with
  | nil => rfl
  | cons s segments ih => simpa [step] using ih

/-- A segment leads from the folder back to it, out of it, or to what has its name. -/
theorem step_here_cases (segment : List Char) :
    (∀ d : Folder, d.step .here segment = .here) ∨
      (∀ d : Folder, d.step .here segment = .elsewhere) ∨
        ∀ d : Folder, d.step .here segment = d.named (String.ofList segment) := by
  by_cases hstays : stays segment = true
  · exact .inl fun d => if_pos hstays
  by_cases hup : segment = ['.', '.']
  · exact .inr (.inl fun d => by rw [step, if_neg hstays, if_pos hup])
  · exact .inr (.inr fun d => by rw [step, if_neg hstays, if_neg hup])

theorem step_elsewhere_cases (segment : List Char) :
    (∀ d : Folder, d.step .elsewhere segment = .elsewhere) ∨
      ∀ d : Folder, d.step .elsewhere segment = .nowhere .notFound := by
  by_cases hstays : (stays segment || segment == ['.', '.']) = true
  · exact .inl fun d => if_pos hstays
  · exact .inr fun d => if_neg hstays

/-- Nothing lies below the place of a file. -/
theorem eq_nil_of_foldl_named (hp : p.IsEntry) {name : String} {segments : List (List Char)}
    (h : segments.foldl d.step (d.named name) = p) : segments = [] := by
  cases segments with
  | nil => rfl
  | cons segment segments =>
    have hnowhere : ∃ reason, d.step (d.named name) segment = .nowhere reason := by
      obtain ⟨reason, hnamed⟩ | ⟨-, ⟨hnamed, -⟩ | ⟨hnamed, -⟩⟩ := d.named_cases name
      all_goals exact ⟨_, by rw [hnamed, step]⟩
    obtain ⟨reason, hstep⟩ := hnowhere
    rw [List.foldl_cons, hstep, foldl_nowhere] at h
    subst h
    exact hp.elim

section Named

variable (hp : p.IsEntry) (hnamed : ∀ name, d.named name = p → d'.named name = p')

include hp hnamed

/-- Two folders lead alike to the place of a file if they do so by its name. -/
theorem foldl_step_of_named {start : Place} (hstart : start = .here ∨ start = .elsewhere)
    {segments : List (List Char)} (h : segments.foldl d.step start = p) :
    segments.foldl d'.step start = p' := by
  induction segments generalizing start with
  | nil =>
    subst h
    rcases hstart with rfl | rfl <;> exact hp.elim
  | cons segment segments ih =>
    rw [List.foldl_cons] at h ⊢
    rcases hstart with rfl | rfl
    · rcases step_here_cases segment with hstep | hstep | hstep <;> rw [hstep] at h ⊢
      · exact ih (.inl rfl) h
      · exact ih (.inr rfl) h
      · obtain rfl := eq_nil_of_foldl_named hp h
        exact hnamed _ h
    · rcases step_elsewhere_cases segment with hstep | hstep <;> rw [hstep] at h ⊢
      · exact ih (.inr rfl) h
      · rw [foldl_nowhere] at h
        subst h
        exact hp.elim

theorem follow_of_named (hlocation : d'.location = d.location) {path : String}
    (h : d.follow path = p) : d'.follow path = p' := by
  unfold follow at h ⊢
  rw [hlocation]
  dsimp only at h ⊢
  split_ifs at h ⊢
  -- the null byte, the empty path, the null device and the folder itself
  iterate 4
    subst h
    exact hp.elim
  · exact foldl_step_of_named hp hnamed (.inl rfl) h
  all_goals exact foldl_step_of_named hp hnamed (by simp) h

end Named

theorem exists_named_of_follow (hp : p.IsEntry) {path : String} (h : d.follow path = p) :
    ∃ name, d.named name = p := by
  by_contra hnone
  have hhere : d.follow path = .here :=
    follow_of_named hp (fun name hname => absurd ⟨name, hname⟩ hnone) rfl h
  rw [h] at hhere
  subst hhere
  exact hp

end Following

section Storing

variable {d d' : Folder} {path : String} {bytes : ByteArray}

theorem store_cases (h : d.store path bytes = .ok d') :
    d.follow path = .nullDevice ∧ d' = d ∨ ∃ name, d' = d.put name bytes ∧
      (d.follow path = .file name ∨ d.follow path = .absent name) := by
  unfold store at h
  dsimp only at h
  split at h
  · split at h <;> cases h
  · split at h
    case h_3 hfollow =>
      cases h
      exact .inl ⟨hfollow, rfl⟩
    case h_5 name hfollow =>
      cases h
      exact .inr ⟨name, rfl, .inl hfollow⟩
    case h_6 name hfollow =>
      cases h
      exact .inr ⟨name, rfl, .inr hfollow⟩
    all_goals cases h

theorem contentOf_of_file {name : String} (h : d.follow path = .file name)
    (hbytes : d.files.lookup name = some bytes) : d.contentOf path = .ok bytes := by
  rw [contentOf, h]
  simp only [hbytes]

/-- What is stored at a path is read back from it, unless the null device takes it. -/
theorem contentOf_store (hpath : d.follow path ≠ .nullDevice)
    (h : d.store path bytes = .ok d') : d'.contentOf path = .ok bytes := by
  obtain ⟨hdevice, -⟩ | ⟨name, rfl, hfile | habsent⟩ := store_cases h
  · exact absurd hdevice hpath
  · have hfound : (d.put name bytes).follow path = .file name :=
      follow_of_named Place.isEntry_file (fun _ => named_put_of_file) rfl hfile
    exact contentOf_of_file hfound lookup_put_self
  · have hnamed (s : String) (hs : d.named s = .absent name) :
        (d.put name bytes).named s = .file name := by
      obtain ⟨rfl, hsize, -⟩ := of_named_eq_absent hs
      exact named_put_self hsize
    exact contentOf_of_file (follow_of_named Place.isEntry_absent hnamed rfl habsent)
      lookup_put_self

/-- A file at another path keeps its content. -/
theorem contentOf_store_of_ne {other name : String} (hother : d.follow other = .file name)
    (hpath : d.follow path ≠ .file name) (h : d.store path bytes = .ok d') :
    d'.contentOf other = d.contentOf other := by
  obtain ⟨-, rfl⟩ | ⟨stored, rfl, hstored⟩ := store_cases h
  · rfl
  obtain ⟨s, hs⟩ := exists_named_of_follow Place.isEntry_file hother
  obtain ⟨-, -, htaken⟩ := named_eq_file_iff.1 hs
  obtain ⟨content, hcontent⟩ := Option.isSome_iff_exists.1 htaken
  have hne : name ≠ stored := by
    rintro rfl
    rcases hstored with hfile | habsent
    · exact hpath hfile
    · obtain ⟨s', hs'⟩ := exists_named_of_follow Place.isEntry_absent habsent
      rw [(of_named_eq_absent hs').2.2] at hcontent
      cases hcontent
  have hfound : (d.put stored bytes).follow other = .file name :=
    follow_of_named Place.isEntry_file (fun _ => named_put_of_file) rfl hother
  rw [contentOf_of_file hother hcontent, contentOf_of_file hfound]
  rw [lookup_put_of_ne hne, hcontent]

end Storing

end Folder

end TraceSearch.Host
