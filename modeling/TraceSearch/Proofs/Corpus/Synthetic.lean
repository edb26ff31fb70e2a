import Mathlib
import TraceSearch.Corpus.Synthetic
import TraceSearch.Text.Reader

/-!
# The synthetic corpus is well formed

The ids of the synthetic corpus are fixed-width numbers made from positions, and the times of a span
follow from its place in a story. Main fact: `wellFormed_generate`, up to 2 ^ 32 traces no id is
used twice, each trace is a tree of spans that lie within their parents, and no timestamp is out of
range.
-/

namespace TraceSearch.Corpus.Synthetic

section Hexadecimal

/-- A text of so many lower-case hexadecimal digits that stands for a number. -/
structure IsHex (width n : ℕ) (id : String) : Prop where
  length : id.toList.length = width
  digits : ∀ c ∈ id.toList, c ∈ "0123456789abcdef".toList
  value : Text.hexNumber? id.toList = some n

theorem hexNumber?_append (ds es : List Char) :
    Text.hexNumber? (ds ++ es) =
      (Text.hexNumber? ds).bind fun n =>
        es.foldlM (fun n d => (Json.hexValue? d).map (16 * n + ·)) n :=
  List.foldlM_append

@[simp] theorem hexNumber?_zeros (k : ℕ) : Text.hexNumber? (List.replicate k '0') = some 0 := by
  induction k with
  | zero => rfl
  | succ k ih =>
    rw [List.replicate_succ', hexNumber?_append, ih]
    rfl

theorem hexDigit_spec : ∀ d < 16,
    d.digitChar ∈ "0123456789abcdef".toList ∧ Json.hexValue? d.digitChar = some d := by
  decide

theorem hexNumber?_toDigits (n : ℕ) :
    (∀ c ∈ Nat.toDigits 16 n, c ∈ "0123456789abcdef".toList) ∧
      Text.hexNumber? (Nat.toDigits 16 n) = some n := by
  induction n using Nat.strongRecOn with
  | ind n ih =>
    rcases Nat.lt_or_ge n 16 with hlt | hge
    · obtain ⟨hdigit, hvalue⟩ := hexDigit_spec n hlt
      rw [Nat.toDigits_of_lt_base hlt]
      refine ⟨fun c hc => List.mem_singleton.1 hc ▸ hdigit, ?_⟩
      simp [Text.hexNumber?, hvalue]
    · obtain ⟨hdigits, hvalues⟩ := ih (n / 16) (by omega)
      obtain ⟨hdigit, hvalue⟩ := hexDigit_spec (n % 16) (by omega)
      rw [Nat.toDigits_of_base_le (by decide) hge]
      constructor
      · intro c hc
        rcases List.mem_append.1 hc with hc | hc
        · exact hdigits c hc
        · exact List.mem_singleton.1 hc ▸ hdigit
      · rw [hexNumber?_append, hvalues]
        simp only [Option.bind_some, List.foldlM_cons, List.foldlM_nil, hvalue, Option.map_some,
          Option.pure_def, Option.bind_eq_bind, Option.some.injEq]
        omega

theorem isHex_hex {width n : ℕ} (hwidth : 0 < width) (hn : n < 16 ^ width) :
    IsHex width n (hex width n) := by
  obtain ⟨hdigits, hvalue⟩ := hexNumber?_toDigits n
  have hshort : (Nat.toDigits 16 n).length ≤ width :=
    (Nat.length_toDigits_le_iff (by decide) hwidth).2 hn
  constructor
  case length =>
    rw [hex, String.toList_ofList, List.leftpad, List.length_append, List.length_replicate]
    omega
  case digits =>
    intro c hc
    rw [hex, String.toList_ofList] at hc
    rcases List.mem_append.1 hc with hc | hc
    · rw [List.eq_of_mem_replicate hc]
      decide
    · exact hdigits c hc
  case value =>
    rw [hex, String.toList_ofList, List.leftpad, hexNumber?_append, hexNumber?_zeros]
    exact hvalue

theorem IsHex.inj {width m n : ℕ} {id : String} (hm : IsHex width m id) (hn : IsHex width n id) :
    m = n :=
  Option.some.inj (hm.value.symm.trans hn.value)

end Hexadecimal

section Identity

variable {index position : ℕ}

/-- The positions of a trace and of a span do not overlap in the number of the span. -/
theorem toNat_spanNumber (hindex : index < 2 ^ 32) (hposition : position < 255) :
    (spanNumber index position).toNat = (index + 1) * 256 + (position + 1) := by
  have htrace : (UInt64.ofNat index + 1).toNat = index + 1 := by
    rw [UInt64.toNat_add, UInt64.toNat_ofNat', UInt64.toNat_one]
    omega
  have hspan : (UInt64.ofNat position + 1).toNat = position + 1 := by
    rw [UInt64.toNat_add, UInt64.toNat_ofNat', UInt64.toNat_one]
    omega
  have hlow : position + 1 < 2 ^ 8 := by omega
  have hshift : (index + 1) <<< 8 = (index + 1) * 256 := Nat.shiftLeft_eq _ _
  have hhigh : ((UInt64.ofNat index + 1) <<< 8).toNat = (index + 1) <<< 8 := by
    rw [UInt64.toNat_shiftLeft, htrace]
    change (index + 1) <<< 8 % 2 ^ 64 = _
    omega
  rw [spanNumber, UInt64.toNat_or, hhigh, hspan, ← Nat.shiftLeft_add_eq_or_of_lt hlow, hshift]

theorem isHex_spanId (hindex : index < 2 ^ 32) (hposition : position < 255) :
    IsHex 16 ((index + 1) * 256 + (position + 1)) (spanId index position) := by
  rw [← toNat_spanNumber hindex hposition]
  exact isHex_hex (by decide) (UInt64.toNat_lt _)

theorem spanId_inj {other otherPosition : ℕ} (hindex : index < 2 ^ 32) (hposition : position < 255)
    (hother : other < 2 ^ 32) (hotherPosition : otherPosition < 255)
    (h : spanId index position = spanId other otherPosition) :
    index = other ∧ position = otherPosition := by
  have hnumber := (isHex_spanId hindex hposition).inj
    (h ▸ isHex_spanId hother hotherPosition)
  omega

theorem isHex_traceId (hindex : index < 2 ^ 32) : IsHex 32 (index + 1) (traceId index) :=
  isHex_hex (by decide) (by omega)

end Identity

section Stories

/-- A story whose first scene starts it and whose other scenes lie within earlier ones. -/
structure Sound (scenes : List Scene) : Prop where
  root : ∃ first ∈ scenes.head?, first.parent = none ∧ first.offset = 0
  nested : ∀ position < scenes.length, ∀ scene ∈ scenes[position]?, position ≠ 0 →
    ∃ earlier < position, scene.parent = some earlier ∧ ∃ parent ∈ scenes[earlier]?,
      parent.offset ≤ scene.offset ∧
        scene.offset + scene.length ≤ parent.offset + parent.length
  brief : ∀ scene ∈ scenes, scene.offset + scene.length ≤ 300
  unnamed : ∀ scene ∈ scenes, ∀ entry ∈ scene.attributes, entry.1 ≠ serviceKey
  few : scenes.length ≤ 3

theorem sound_story (index : ℕ) : Sound (story index) := by
  unfold story
  split <;> constructor <;> decide

theorem Sound.earlier {scenes : List Scene} (h : Sound scenes) : ∀ position < scenes.length,
    ∀ scene ∈ scenes[position]?, ∀ earlier ∈ scene.parent, earlier < position := by
  intro position hposition scene hscene earlier hparent
  rcases Nat.eq_zero_or_pos position with rfl | hpos
  · obtain ⟨first, hfirst, hroot, -⟩ := h.root
    rw [← List.head?_eq_getElem?, hfirst] at hscene
    cases hscene
    rw [hroot] at hparent
    cases hparent
  · obtain ⟨named, hnamed, heq, -⟩ := h.nested position hposition scene hscene (by omega)
    rw [heq] at hparent
    cases hparent
    exact hnamed

/-- A scene with its parent named by position, which is the id that an earlier span has. -/
def toldAt (index position : ℕ) (scene : Scene) : Told :=
  ⟨scene.service, spanOf index position ((scene.parent.map (spanId index)).getD "") scene⟩

/-- Where a scene ends up: its span, with the resource of its own. -/
def placed (index position : ℕ) (scene : Scene) : PlacedSpan :=
  ⟨⟨Attributes.empty.putString serviceKey scene.service⟩, (toldAt index position scene).span⟩

theorem tell_mapIdx {index : ℕ} {scenes : List Scene} {scene : Scene}
    (h : ∀ earlier ∈ scene.parent, earlier < scenes.length) :
    tell index (scenes.mapIdx (toldAt index)) scene =
      (scenes ++ [scene]).mapIdx (toldAt index) := by
  have hparent : (scene.parent.bind ((scenes.mapIdx (toldAt index))[·]?)).map
      (fun parent => parent.span.spanId) = scene.parent.map (spanId index) := by
    cases hscene : scene.parent with
    | none => rfl
    | some earlier =>
      have hlt := h earlier (Option.mem_def.2 hscene)
      rw [Option.bind_some, List.getElem?_mapIdx, List.getElem?_eq_getElem hlt]
      rfl
  rw [tell, hparent, List.mapIdx_concat, List.length_mapIdx]
  rfl

/-- Told one after another, the scenes stand at their positions. -/
theorem foldl_tell {index : ℕ} {scenes : List Scene}
    (h : ∀ position < scenes.length, ∀ scene ∈ scenes[position]?,
      ∀ earlier ∈ scene.parent, earlier < position) :
    scenes.foldl (tell index) [] = scenes.mapIdx (toldAt index) := by
  induction scenes using List.reverseRecOn with
  | nil => rfl
  | append_singleton scenes scene ih =>
    have hscenes : scenes.foldl (tell index) [] = scenes.mapIdx (toldAt index) := by
      refine ih fun position hposition before hbefore => ?_
      refine h position (by simp; omega) before ?_
      rwa [List.getElem?_append_left hposition]
    have hlast : ∀ earlier ∈ scene.parent, earlier < scenes.length :=
      h scenes.length (by simp) scene (by simp)
    rw [List.foldl_append, hscenes]
    exact tell_mapIdx hlast

theorem spans_trace (index : ℕ) : (trace index).spans = (story index).mapIdx (placed index) := by
  have hplaced (position : ℕ) (scene : Scene) :
      (toldAt index position scene).resourceSpans.placed = [placed index position scene] := rfl
  rw [Trace.spans, trace, foldl_tell (sound_story index).earlier, List.flatMap_map,
    List.mapIdx_eq_zipIdx_map, List.flatMap_map, List.mapIdx_eq_zipIdx_map, List.map_eq_flatMap]
  simp only [hplaced]

theorem getElem?_spans {index position : ℕ} {s : PlacedSpan} :
    (trace index).spans[position]? = some s ↔
      ∃ scene, (story index)[position]? = some scene ∧ placed index position scene = s := by
  rw [spans_trace, List.getElem?_mapIdx, Option.map_eq_some_iff]

theorem mem_spans {index : ℕ} {s : PlacedSpan} (h : s ∈ (trace index).spans) :
    ∃ position scene, position < 3 ∧ scene ∈ story index ∧ placed index position scene = s := by
  obtain ⟨position, hposition⟩ := List.mem_iff_getElem?.1 h
  obtain ⟨scene, hscene, hs⟩ := getElem?_spans.1 hposition
  obtain ⟨hlt, -⟩ := List.getElem?_eq_some_iff.1 hscene
  exact ⟨position, scene, Nat.lt_of_lt_of_le hlt (sound_story index).few,
    List.mem_of_getElem? hscene, hs⟩

end Stories

section Times

theorem toNat_timestamp {nanos : ℕ} (h : nanos < 2 ^ 63) : (timestamp nanos).toNat = nanos := by
  have hfits : (Duration.fits64 nanos && decide (0 ≤ (nanos : ℤ))) = true := by
    simp [Duration.fits64, Duration.least64, Duration.greatest64]
    omega
  rw [timestamp, if_pos hfits, Int.toNat_natCast, UInt64.toNat_ofNat', Nat.mod_eq_of_lt (by omega)]

theorem unixNanos_baseTime : baseTime.unixNanos = 1704110400000000000 := rfl

/-- The start of the story at an index, which is after the epoch. -/
def storyNanos (index : ℕ) : ℕ := 1704110400000000000 + index * 10 ^ 9

theorem storyStart_eq (index : ℕ) : storyStart index = storyNanos index := by
  rw [storyStart, unixNanos_baseTime, storyNanos]
  omega

/-- No time of a span is out of range, so none counts as zero; nor is one in the next three stories.
-/
theorem toNat_times {index : ℕ} (hindex : index < 2 ^ 32 + 3) {scene : Scene}
    (hscene : scene.offset + scene.length ≤ 300) (position : ℕ) :
    (placed index position scene).span.start.toNat =
        storyNanos index + scene.offset * 1000000 ∧
      (placed index position scene).span.stop.toNat =
        storyNanos index + (scene.offset + scene.length) * 1000000 := by
  have hbegin : storyNanos index + scene.offset * 1000000 < 2 ^ 63 := by
    unfold storyNanos
    omega
  have hend : storyNanos index + (scene.offset + scene.length) * 1000000 < 2 ^ 63 := by
    unfold storyNanos
    omega
  have hstart : storyStart index + scene.offset * 1000000 =
      (storyNanos index + scene.offset * 1000000 : ℕ) := by
    rw [storyStart_eq]
    omega
  have hstop : storyStart index + scene.offset * 1000000 + scene.length * 1000000 =
      (storyNanos index + (scene.offset + scene.length) * 1000000 : ℕ) := by
    rw [storyStart_eq]
    omega
  constructor
  · show (timestamp (storyStart index + scene.offset * 1000000)).toNat = _
    rw [hstart]
    exact toNat_timestamp hbegin
  · show (timestamp (storyStart index + scene.offset * 1000000 + scene.length * 1000000)).toNat = _
    rw [hstop]
    exact toNat_timestamp hend

end Times

section Services

theorem get?_foldl_put {key : String} {writes : List (String × AttributeValue)}
    (h : ∀ entry ∈ writes, entry.1 ≠ key) (a : Attributes) :
    (writes.foldl (fun a (k, v) => a.put k v) a).get? key = a.get? key := by
  induction writes generalizing a with
  | nil => rfl
  | cons entry rest ih =>
    have hentry := h entry List.mem_cons_self
    have hrest := fun other hother => h other (List.mem_cons_of_mem entry hother)
    rw [List.foldl_cons, ih hrest]
    exact Attributes.get?_put_of_ne (Ne.symm hentry) a entry.2

/-- A span keeps the name of its service: its other attributes have other keys. -/
theorem service_placed {scene : Scene} (h : ∀ entry ∈ scene.attributes, entry.1 ≠ serviceKey)
    (index position : ℕ) :
    (placed index position scene).span.attributes.getString? serviceKey = some scene.service ∧
      (placed index position scene).resource.service? = some scene.service := by
  have hown : (placed index position scene).span.attributes.get? serviceKey =
      some (.string scene.service) := by
    change (scene.attributes.foldl (fun a (k, v) => a.put k v)
      (Attributes.empty.put serviceKey (.string scene.service))).get? serviceKey = _
    rw [get?_foldl_put h, Attributes.get?_put_self]
  constructor
  · rw [Attributes.getString?, hown]
    rfl
  · rw [Resource.service?, Attributes.getString?]
    change ((Attributes.empty.put serviceKey (.string scene.service)).get? serviceKey).bind _ = _
    rw [Attributes.get?_put_self]
    rfl

end Services

/-- The trace at an index as it should be: a root without a parent that starts the story, below it
spans that lie within the parent they name, every id in its width, and the service named twice. -/
structure WellFormed (index : ℕ) (t : Trace) : Prop where
  root : ∃ first others, t.spans = first :: others ∧ first.span.parentSpanId = "" ∧
    first.span.start.toNat = 1704110400000000000 + index * 10 ^ 9 ∧
    ∀ s ∈ others, s.span.parentSpanId ≠ ""
  nested : ∀ (position : ℕ) (s : PlacedSpan), t.spans[position]? = some s →
    s.span.parentSpanId ≠ "" → ∃ (earlier : ℕ) (parent : PlacedSpan), earlier < position ∧
      t.spans[earlier]? = some parent ∧ s.span.parentSpanId = parent.span.spanId ∧
      parent.span.start ≤ s.span.start ∧ s.span.start ≤ s.span.stop ∧
      s.span.stop ≤ parent.span.stop
  traceIds : ∀ s ∈ t.spans, IsHex 32 (index + 1) s.span.traceId
  spanIds : ∀ s ∈ t.spans, ∃ number, IsHex 16 number s.span.spanId
  services : ∀ s ∈ t.spans, ∃ name,
    s.span.attributes.getString? serviceKey = some name ∧ s.resource.service? = some name

theorem spanId_ne_empty {index position : ℕ} (hindex : index < 2 ^ 32)
    (hposition : position < 255) : spanId index position ≠ "" := by
  intro hempty
  have hlength := (isHex_spanId hindex hposition).length
  rw [hempty] at hlength
  contradiction

/-- Only the first scene has no parent, and the id of a parent is not empty. -/
theorem parentSpanId_eq_empty_iff {index position : ℕ} {scene : Scene} (hindex : index < 2 ^ 32)
    (hscene : (story index)[position]? = some scene) :
    (placed index position scene).span.parentSpanId = "" ↔ position = 0 := by
  have hsound := sound_story index
  obtain ⟨hlt, -⟩ := List.getElem?_eq_some_iff.1 hscene
  have hid : (placed index position scene).span.parentSpanId =
      (scene.parent.map (spanId index)).getD "" := rfl
  rw [hid]
  constructor
  · intro hempty
    by_contra hchild
    obtain ⟨earlier, hearlier, hparent, -⟩ := hsound.nested position hlt scene hscene hchild
    rw [hparent] at hempty
    exact spanId_ne_empty hindex (by have := hsound.few; omega) hempty
  · rintro rfl
    obtain ⟨first, hfirst, hparent, -⟩ := hsound.root
    rw [← List.head?_eq_getElem?, hfirst] at hscene
    cases hscene
    rw [hparent]
    rfl

/-- The first span has no parent, it starts the story, and the spans after it have parents. -/
theorem root_trace {index : ℕ} (hindex : index < 2 ^ 32) :
    ∃ first others, (trace index).spans = first :: others ∧ first.span.parentSpanId = "" ∧
      first.span.start.toNat = 1704110400000000000 + index * 10 ^ 9 ∧
      ∀ s ∈ others, s.span.parentSpanId ≠ "" := by
  obtain ⟨first, hfirst, -, hoffset⟩ := (sound_story index).root
  obtain ⟨others, hstory⟩ := List.head?_eq_some_iff.1 hfirst
  have hzero : (story index)[0]? = some first := by rw [← List.head?_eq_getElem?, hfirst]
  have hspans : (trace index).spans =
      placed index 0 first :: others.mapIdx fun position => placed index (position + 1) := by
    rw [spans_trace, hstory, List.mapIdx_cons]
  have hstart := (toNat_times (Nat.lt_add_right 3 hindex)
    ((sound_story index).brief first (List.mem_of_mem_head? hfirst)) 0).1
  refine ⟨_, _, hspans, (parentSpanId_eq_empty_iff hindex hzero).2 rfl, ?_, ?_⟩
  · rw [hoffset, Nat.zero_mul, Nat.add_zero] at hstart
    exact hstart
  · intro s hs hempty
    obtain ⟨position, hposition⟩ := List.mem_iff_getElem?.1 hs
    obtain ⟨scene, hscene, rfl⟩ : ∃ scene, (story index)[position + 1]? = some scene ∧
        placed index (position + 1) scene = s := by
      rw [← getElem?_spans, hspans, List.getElem?_cons_succ]
      exact hposition
    have hfirstPosition := (parentSpanId_eq_empty_iff hindex hscene).1 hempty
    contradiction

/-- The parent of a span is an earlier one, and the span lies within it. -/
theorem nested_trace {index position : ℕ} (hindex : index < 2 ^ 32) {s : PlacedSpan}
    (hs : (trace index).spans[position]? = some s) (hchild : s.span.parentSpanId ≠ "") :
    ∃ (earlier : ℕ) (parent : PlacedSpan), earlier < position ∧
      (trace index).spans[earlier]? = some parent ∧ s.span.parentSpanId = parent.span.spanId ∧
      parent.span.start ≤ s.span.start ∧ s.span.start ≤ s.span.stop ∧
      s.span.stop ≤ parent.span.stop := by
  have hsound := sound_story index
  obtain ⟨scene, hscene, rfl⟩ := getElem?_spans.1 hs
  obtain ⟨hlt, -⟩ := List.getElem?_eq_some_iff.1 hscene
  have hposition : position ≠ 0 := mt (parentSpanId_eq_empty_iff hindex hscene).2 hchild
  obtain ⟨earlier, hearlier, hparent, parent, hat, hstart, hstop⟩ :=
    hsound.nested position hlt scene hscene hposition
  obtain ⟨hchildStart, hchildStop⟩ := toNat_times (Nat.lt_add_right 3 hindex)
    (hsound.brief scene (List.mem_of_getElem? hscene)) position
  obtain ⟨hparentStart, hparentStop⟩ := toNat_times (Nat.lt_add_right 3 hindex)
    (hsound.brief parent (List.mem_of_getElem? hat)) earlier
  refine ⟨earlier, placed index earlier parent, hearlier, getElem?_spans.2 ⟨parent, hat, rfl⟩,
    ?_, ?_, ?_, ?_⟩
  · change (scene.parent.map (spanId index)).getD "" = spanId index earlier
    rw [hparent, Option.map_some, Option.getD_some]
  all_goals rw [UInt64.le_iff_toNat_le]
  · rw [hparentStart, hchildStart]
    omega
  · rw [hchildStart, hchildStop]
    omega
  · rw [hchildStop, hparentStop]
    omega

theorem wellFormed_trace {index : ℕ} (hindex : index < 2 ^ 32) :
    WellFormed index (trace index) where
  root := root_trace hindex
  nested _ _ hs hchild := nested_trace hindex hs hchild
  traceIds s hs := by
    obtain ⟨position, scene, -, -, rfl⟩ := mem_spans hs
    exact isHex_traceId hindex
  spanIds s hs := by
    obtain ⟨position, scene, hposition, -, rfl⟩ := mem_spans hs
    exact ⟨_, isHex_spanId hindex (by omega)⟩
  services s hs := by
    obtain ⟨position, scene, -, hscene, rfl⟩ := mem_spans hs
    exact ⟨_, service_placed ((sound_story index).unnamed scene hscene) index position⟩

theorem spanIds_trace (index : ℕ) :
    ((trace index).spans.map fun s => s.span.spanId) =
      (List.range (story index).length).map (spanId index) := by
  refine List.ext_getElem? fun position => ?_
  rw [spans_trace, List.getElem?_map, List.getElem?_mapIdx, List.getElem?_map]
  by_cases hposition : position < (story index).length
  · rw [List.getElem?_range hposition, List.getElem?_eq_getElem hposition]
    rfl
  · rw [List.getElem?_eq_none (Nat.le_of_not_lt hposition), List.getElem?_eq_none]
    · rfl
    · rw [List.length_range]
      exact Nat.le_of_not_lt hposition

theorem nodup_spanIds {n : ℕ} (h : n ≤ 2 ^ 32) :
    (((generate n).flatMap Trace.spans).map fun s => s.span.spanId).Nodup := by
  have hids : ((generate n).flatMap Trace.spans).map (fun s => s.span.spanId) =
      (List.range n).flatMap fun index =>
        (List.range (story index).length).map (spanId index) := by
    rw [generate, List.flatMap_map, List.map_flatMap]
    exact congrArg (List.range n).flatMap (funext spanIds_trace)
  have few {index position : ℕ} (hposition : position ∈ List.range (story index).length) :
      position < 255 := by
    have := (sound_story index).few
    have := List.mem_range.1 hposition
    omega
  rw [hids, List.nodup_flatMap]
  constructor
  · intro index hindex
    have hlt := Nat.lt_of_lt_of_le (List.mem_range.1 hindex) h
    refine List.Nodup.map_on (fun a ha b hb hab => ?_) List.nodup_range
    exact (spanId_inj hlt (few ha) hlt (few hb) hab).2
  · refine List.Pairwise.imp_of_mem ?_ List.pairwise_lt_range
    intro index other hindex hother hlt id hid hid'
    obtain ⟨a, ha, rfl⟩ := List.mem_map.1 hid
    obtain ⟨b, hb, hab⟩ := List.mem_map.1 hid'
    have hindex := Nat.lt_of_lt_of_le (List.mem_range.1 hindex) h
    have hother := Nat.lt_of_lt_of_le (List.mem_range.1 hother) h
    exact Nat.ne_of_gt hlt (spanId_inj hother (few hb) hindex (few ha) hab).1

theorem getElem?_generate {n index : ℕ} {t : Trace} :
    (generate n)[index]? = some t ↔ index < n ∧ trace index = t := by
  rw [generate, List.getElem?_map, Option.map_eq_some_iff]
  constructor
  · rintro ⟨_, hat, rfl⟩
    obtain ⟨hlt, rfl⟩ := List.getElem?_eq_some_iff.1 hat
    rw [List.getElem_range]
    exact ⟨by rwa [List.length_range] at hlt, rfl⟩
  · rintro ⟨hlt, rfl⟩
    exact ⟨index, List.getElem?_range hlt, rfl⟩

/-- The corpus of any size that the ids have room for is well formed, and no id of a trace or of a
span occurs in it twice. -/
theorem wellFormed_generate {n : ℕ} (h : n ≤ 2 ^ 32) :
    (generate n).length = n ∧
      (∀ index t, (generate n)[index]? = some t → WellFormed index t) ∧
      (generate n).Pairwise (fun a b => ∀ s ∈ a.spans, ∀ s' ∈ b.spans,
        s.span.traceId ≠ s'.span.traceId) ∧
      (((generate n).flatMap Trace.spans).map fun s => s.span.spanId).Nodup := by
  refine ⟨?_, ?_, ?_, nodup_spanIds h⟩
  · rw [generate, List.length_map, List.length_range]
  · intro index t hat
    obtain ⟨hindex, rfl⟩ := getElem?_generate.1 hat
    exact wellFormed_trace (Nat.lt_of_lt_of_le hindex h)
  · rw [generate, List.pairwise_map]
    refine List.Pairwise.imp_of_mem ?_ List.pairwise_lt_range
    intro index other hindex hother hlt s hs s' hs' hid
    have hindex := Nat.lt_of_lt_of_le (List.mem_range.1 hindex) h
    have hother := Nat.lt_of_lt_of_le (List.mem_range.1 hother) h
    have hnumber := (wellFormed_trace hindex).traceIds s hs
    rw [hid] at hnumber
    have := hnumber.inj ((wellFormed_trace hother).traceIds s' hs')
    omega

/-- The largest such corpus ends with a trace whose id is the number of traces. -/
theorem wellFormed_generate_largest :
    2 ^ 32 ≤ 2 ^ 32 ∧ (generate (2 ^ 32)).length = 2 ^ 32 ∧
      (generate (2 ^ 32))[2 ^ 32 - 1]? = some (trace (2 ^ 32 - 1)) ∧
      WellFormed (2 ^ 32 - 1) (trace (2 ^ 32 - 1)) ∧
      (((generate (2 ^ 32)).flatMap Trace.spans).map fun s => s.span.spanId).Nodup := by
  obtain ⟨hlength, hwell, -, hnodup⟩ := wellFormed_generate (n := 2 ^ 32) (Nat.le_refl _)
  have hlast : (generate (2 ^ 32))[2 ^ 32 - 1]? = some (trace (2 ^ 32 - 1)) :=
    getElem?_generate.2 ⟨by decide, rfl⟩
  exact ⟨Nat.le_refl _, hlength, hlast, hwell _ _ hlast, hnodup⟩

end TraceSearch.Corpus.Synthetic
