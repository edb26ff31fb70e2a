import TraceSearch.Proofs.Corpus.RoundTrip
import TraceSearch.Proofs.Corpus.Synthetic
import TraceSearch.Proofs.Host.Folder
import TraceSearch.Proofs.Otlp.Loaded

/-!
# Stored corpora

A corpus is stored as the bytes of the text it is written as, and loaded from the bytes at the same
path. Main facts: `ofFile_stored`, loading undoes storing as far as reading undoes writing, and
`ofFile_stored_generate`, the synthetic corpus of any size survives.
-/

namespace TraceSearch.Corpus

section Stored

variable {d d' : Host.Folder} {path : String}

theorem textOf_utf8 (text : String) : Host.textOf (.ok (Text.utf8 text)) = .ok text := by
  have hread : Text.ofUtf8? (Text.utf8 text) = some text := dif_pos text.isValidUTF8
  simp only [Host.textOf, hread]

/-- What is loaded from a path where a corpus was stored is what its text is read as. -/
theorem ofFile_stored {traces : List Trace} (hpath : d.follow path ≠ .nullDevice)
    (h : d.store path (Text.utf8 (write traces)) = .ok d') :
    ofFile path (d'.contentOf path) = parse (write traces) := by
  rw [Host.Folder.contentOf_store hpath h, ofFile, textOf_utf8]

end Stored

namespace Synthetic

open Otlp

/-- No scene has an attribute that is a double or holds others. -/
theorem flat_story (index : ℕ) : ∀ scene ∈ story index,
    scene.spanAttributes.doubles.isEmpty = true ∧
      (encodeAttributes scene.spanAttributes).nesting ≤ 3 := by
  unfold story
  split <;> decide +kernel

/-- The span of a scene holds no doubles and stands in eight brackets with its resource. -/
theorem flat_toldAt {index position : ℕ} {scene : Scene} (h : scene ∈ story index) :
    (toldAt index position scene).resourceSpans.doubles = [] ∧
      (encodeResourceSpans (toldAt index position scene).resourceSpans).nesting ≤ 8 := by
  obtain ⟨hdoubles, hnesting⟩ := flat_story index scene h
  constructor
  · have hspan : (toldAt index position scene).span.doubles = [] := by
      rw [Span.doubles, List.append_eq_nil_iff]
      exact ⟨List.isEmpty_iff.1 hdoubles, rfl⟩
    have hresource : (Attributes.empty.putString serviceKey
        (toldAt index position scene).service).doubles = [] := rfl
    simp [ResourceSpans.doubles, ScopeSpans.doubles, Told.resourceSpans, hspan, hresource]
  · have hspan : (encodeSpan (toldAt index position scene).span).nesting ≤ 4 :=
      nesting_encodeSpan_le (by decide) hnesting (Nat.le_of_ble_eq_true rfl)
    have hresource : (encodeResource
        ⟨Attributes.empty.putString serviceKey (toldAt index position scene).service⟩).nesting =
          4 := rfl
    simp only [nesting_encodeResourceSpans, Told.resourceSpans, hresource, List.map_cons,
      List.map_nil, nesting_encodeScopeSpans, Json.nesting, Json.itemsNesting]
    omega

@[simp] theorem doubles_trace (index : ℕ) : (trace index).doubles = [] := by
  rw [Trace.doubles, trace, foldl_tell (sound_story index).earlier, List.flatMap_eq_nil_iff]
  intro resources hresources
  obtain ⟨told, htold, rfl⟩ := List.mem_map.1 hresources
  obtain ⟨position, hposition, rfl⟩ := List.mem_mapIdx.1 htold
  exact (flat_toldAt (List.getElem_mem hposition)).1

theorem nesting_encodeTrace_trace (index : ℕ) : (encodeTrace (trace index)).nesting ≤ 10 := by
  have hitems : Json.itemsNesting ((trace index).resources.map encodeResourceSpans) ≤ 8 := by
    rw [trace, foldl_tell (sound_story index).earlier, Json.itemsNesting_le_iff]
    simp only [List.forall_mem_map]
    intro told htold
    obtain ⟨position, hposition, rfl⟩ := List.mem_mapIdx.1 htold
    exact (flat_toldAt (List.getElem_mem hposition)).2
  rw [nesting_encodeTrace, Json.nesting]
  omega

/-- A synthetic corpus of any size is read as it was written. -/
theorem parse_write_generate (n : ℕ) : parse (write (generate n)) = .ok (generate n) := by
  have hdoubles : ∀ t ∈ generate n, t.doubles = [] :=
    List.forall_mem_map.2 fun index _ => doubles_trace index
  refine parse_write_of_nesting_le (fun t ht => ?_) (fun t ht => ?_) ?_
  · rw [hdoubles t ht]
    exact rereadDoubles_nil
  · rw [hdoubles t ht]
    exact List.forall_mem_nil _
  · have hitems : Json.itemsNesting ((generate n).map encodeTrace) ≤ 10 := by
      rw [Json.itemsNesting_le_iff, generate, List.forall_mem_map, List.forall_mem_map]
      exact fun index _ => nesting_encodeTrace_trace index
    rw [written, Json.nesting, Json.nestingLimit]
    omega

/-- A synthetic corpus of any size survives being stored, wherever that succeeds. -/
theorem ofFile_stored_generate {d d' : Host.Folder} {path : String} {n : ℕ}
    (hpath : d.follow path ≠ .nullDevice)
    (h : d.store path (Text.utf8 (write (generate n))) = .ok d') :
    ofFile path (d'.contentOf path) = .ok (generate n) := by
  rw [ofFile_stored hpath h, parse_write_generate]

end Synthetic

end TraceSearch.Corpus
