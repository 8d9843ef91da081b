import SweepCharts.Chart.Sweep
import SweepCharts.Proofs.Json.Tags
import SweepCharts.Proofs.Sweep.Usability

set_option autoImplicit false

/-! # Charts without tags

The text of a chart has no `<` if nothing that it shows has one. The charts of a sweep show fixed
names, counts and numbers, so they have none whatever was in its files.

* `mem_texts_build`: what a chart shows, by its parts.
* `tagFree_text`: the text of a chart.
* `tagFree_text_ofRecords`: the charts of a sweep.
-/

namespace SweepCharts

/-! ## Charts -/

/-- The names that an axis shows. -/
def Axis.texts (axis : Axis) : List String :=
  axis.name :: match axis.scale with
    | .value => []
    | .category names => names

/-- The names and colors of a series. -/
def Series.texts : Series → List String
  | line name _ _ color _ => [name, color]
  | scatter name _ color => [name, color]
  | sizedScatter name _ _ => [name]
  | labels name points => name :: points.map Prod.snd
  | heatmap name _ => [name]

def Title.texts (t : Title) : List String := [t.text, t.subtext]

def ChartPart.texts : ChartPart → List String
  | xAxis axis => axis.texts
  | yAxis axis => axis.texts
  | dualYAxis left right => [left, right]
  | series s => s.texts
  | colorScale s => s.colors
  | _ => []

namespace Chart

/-- What is shown in a chart beside numbers and marks. -/
def texts (c : Chart) : List String :=
  c.title.toList.flatMap Title.texts ++ c.xAxes.flatMap Axis.texts ++ c.yAxes.flatMap Axis.texts ++
    c.colorScales.flatMap ColorScale.colors ++ c.series.flatMap Series.texts

theorem mem_texts_add {c : Chart} {part : ChartPart} {s : String} :
    s ∈ (c.add part).texts ↔ s ∈ c.texts ∨ s ∈ part.texts := by
  cases part <;>
    simp [add, texts, ChartPart.texts, List.flatMap_append, Axis.texts, Axis.left, Axis.right] <;>
    grind

theorem mem_texts_build {c : Chart} {parts : List ChartPart} {s : String} :
    s ∈ (c.build parts).texts ↔ s ∈ c.texts ∨ ∃ part ∈ parts, s ∈ part.texts := by
  unfold build
  induction parts generalizing c with
  | nil => simp
  | cons part parts ih => simp [ih, mem_texts_add, or_assoc]

end Chart

/-! ### Parts -/

theorem Axis.hasNoTag_toJson {axis : Axis} (h : ∀ s ∈ axis.texts, TagFree s) :
    axis.toJson.HasNoTag := by
  obtain ⟨name, scale, side, splitLines⟩ := axis
  have hname : TagFree name := h name (.head _)
  rw [toJson, Json.hasNoTag_object]
  simp only [List.forall_mem_append]
  refine ⟨⟨⟨⟨?_, ?_⟩, ?_⟩, by simp +decide⟩, ?_⟩
  · cases scale <;> simp +decide [hname]
  · rcases side with _ | _ | _ <;> simp +decide [Json.member?]
  · cases scale <;> simp +decide
  · cases scale with
    | value => exact List.forall_mem_nil _
    | category names =>
      exact Json.forall_mem_listMember_map (by decide) fun s hs =>
        Json.hasNoTag_string.2 (h s (.tail _ hs))

theorem Series.forall_mem_data (points : List Point) :
    ∀ m ∈ data points, TagFree m.1 ∧ m.2.HasNoTag :=
  Json.forall_mem_listMember (by decide) (by simp)

theorem Series.hasNoTag_toJson {series : Series} (h : ∀ s ∈ series.texts, TagFree s) :
    series.toJson.HasNoTag := by
  cases series with
  | line name points marker color axis =>
    have hmarker : TagFree marker.name := by cases marker <;> decide
    rw [toJson, Json.hasNoTag_object, List.forall_mem_append]
    simp only [texts, List.forall_mem_cons] at h
    exact ⟨by simp +decide [h.1, h.2.1, hmarker], forall_mem_data points⟩
  | scatter name points color =>
    rw [toJson, Json.hasNoTag_object, List.forall_mem_append]
    simp only [texts, List.forall_mem_cons] at h
    exact ⟨by simp +decide [h.1, h.2.1], forall_mem_data points⟩
  | sizedScatter name points dimension =>
    have hscript : TagFree (Script.enclose (sizeScript dimension)) := by
      unfold Script.enclose sizeScript
      rw [tagFree_append, tagFree_append, tagFree_append, tagFree_append]
      exact ⟨⟨by decide, ⟨by decide, tagFree_nat dimension⟩, by decide⟩, by decide⟩
    rw [toJson, Json.hasNoTag_object, List.forall_mem_append]
    simp only [texts, List.forall_mem_cons] at h
    exact ⟨by simp +decide [h.1, hscript], forall_mem_data points⟩
  | labels name points =>
    rw [toJson, Json.hasNoTag_object, List.forall_mem_append]
    simp only [texts, List.forall_mem_cons, List.forall_mem_map] at h
    refine ⟨by simp +decide [h.1], Json.forall_mem_listMember_map (by decide) fun p hp => ?_⟩
    simp +decide [h.2 p hp]
  | heatmap name points =>
    rw [toJson, Json.hasNoTag_object, List.forall_mem_append]
    simp only [texts, List.forall_mem_cons] at h
    exact ⟨by simp +decide [h.1], forall_mem_data points⟩

theorem ColorScale.hasNoTag_toJson {scale : ColorScale} (h : ∀ s ∈ scale.colors, TagFree s) :
    scale.toJson.HasNoTag := by
  have hrange : (Json.object (Json.listMember "color" (scale.colors.map .string))).HasNoTag :=
    Json.hasNoTag_object.2 (Json.forall_mem_listMember (by decide) (by simpa using h))
  unfold toJson
  generalize Json.object (Json.listMember "color" (scale.colors.map .string)) = range at hrange ⊢
  simp +decide [hrange]

theorem Title.hasNoTag_toJson {title : Title} (h : ∀ s ∈ title.texts, TagFree s) :
    title.toJson.HasNoTag := by
  simp only [texts, List.forall_mem_cons] at h
  simp +decide [toJson, h.1, h.2.1]

namespace Chart

theorem hasNoTag_toJson {c : Chart} (h : ∀ s ∈ c.texts, TagFree s) : c.toJson.HasNoTag := by
  unfold texts at h
  simp only [List.forall_mem_append, List.forall_mem_flatMap] at h
  obtain ⟨⟨⟨⟨htitle, hxAxes⟩, hyAxes⟩, hscales⟩, hseries⟩ := h
  have hfixed : ∀ m ∈ [("tooltip", tooltip c.itemTooltip), ("legend", legend), ("toolbox", toolbox),
      ("grid", Json.array [plotArea c.title.isSome])], TagFree m.1 ∧ m.2.HasNoTag := by
    cases c.itemTooltip <;> cases c.title.isSome <;>
      simp +decide [tooltip, legend, toolbox, plotArea]
  rw [toJson, Json.hasNoTag_object]
  simp only [List.forall_mem_append]
  refine ⟨⟨⟨⟨⟨⟨⟨?_, hfixed⟩, ?_⟩, ?_⟩, ?_⟩, ?_⟩, ?_⟩, ?_⟩
  · exact Json.forall_mem_listMember_map (by decide) fun t ht => Title.hasNoTag_toJson (htitle t ht)
  · exact Json.forall_mem_listMember_map (by decide) fun a ha => Axis.hasNoTag_toJson (hxAxes a ha)
  · exact Json.forall_mem_listMember_map (by decide) fun a ha => Axis.hasNoTag_toJson (hyAxes a ha)
  · exact Json.forall_mem_listMember_map (by decide) fun s hs =>
      ColorScale.hasNoTag_toJson (hscales s hs)
  · apply Json.forall_mem_listMember (by decide)
    intro slider hslider
    obtain rfl := List.eq_of_mem_replicate hslider
    simp +decide [zoomSlider]
  · cases c.dark <;> simp +decide
  · exact Json.forall_mem_listMember_map (by decide) fun s hs =>
      Series.hasNoTag_toJson (hseries s hs)

/-- **The text of a chart has no tag** if nothing that it shows has one. -/
theorem tagFree_text {c : Chart} (h : ∀ s ∈ c.texts, TagFree s) : TagFree c.text :=
  tagFree_release (Json.tagFree_pretty (hasNoTag_toJson h))

end Chart

/-! ## The charts of a sweep -/

theorem Record.tagFree_label (r : Record) : TagFree r.label := by
  unfold label
  rw [tagFree_append, tagFree_append, tagFree_append]
  refine ⟨⟨⟨by decide, ?_⟩, by decide⟩, tagFree_int _⟩
  split
  · exact tagFree_int _
  · decide

namespace Summary

theorem tagFree_joinParts {parts : List String} (h : ∀ part ∈ parts, TagFree part) :
    TagFree (joinParts parts) :=
  within_intercalate (by decide) h

theorem tagFree_joinInts (values : List Int) : TagFree (joinInts values) :=
  within_intercalate (by decide) (List.forall_mem_map.2 fun n _ => tagFree_int n)

theorem tagFree_sweepText (s : Summary) : TagFree s.sweepText := by
  have hbytes (n : Nat) : TagFree (writeBytes n) :=
    tagFree_append.2 ⟨tagFree_writeCount n, by decide⟩
  have hpayloads : TagFree (", ".intercalate (s.payloadBytes.map fun n => writeBytes n.toNat)) :=
    within_intercalate (by decide) (List.forall_mem_map.2 fun n _ => hbytes n.toNat)
  apply tagFree_joinParts
  simp only [List.forall_mem_append, List.forall_mem_singleton, tagFree_append]
  refine ⟨⟨⟨⟨tagFree_nat _, by decide⟩, ?_⟩, ⟨by decide, tagFree_joinInts _⟩, by decide⟩, ?_⟩
  · split
    · exact List.forall_mem_nil _
    · rw [List.forall_mem_singleton, tagFree_append]
      exact ⟨by decide, tagFree_joinInts _⟩
  · split
    · exact List.forall_mem_nil _
    · rw [List.forall_mem_singleton, tagFree_append]
      exact ⟨by decide, hpayloads⟩

theorem forall_mem_partOf {count : Nat} {text : String} (h : TagFree text) :
    ∀ part ∈ partOf count text, TagFree part := by
  unfold partOf
  split
  · exact List.forall_mem_singleton.2 h
  · exact List.forall_mem_nil _

theorem tagFree_trafficText (s : Summary) : TagFree s.trafficText := by
  apply tagFree_joinParts
  simp only [List.forall_mem_append]
  refine ⟨⟨forall_mem_partOf ?_, forall_mem_partOf ?_⟩, forall_mem_partOf ?_⟩
  · rw [tagFree_append, tagFree_append]
    exact ⟨⟨by decide, tagFree_writeCount _⟩, by decide⟩
  · rw [tagFree_append, tagFree_append]
    exact ⟨⟨by decide, tagFree_writeCount _⟩, by decide⟩
  · rw [tagFree_append]
    exact ⟨tagFree_nat _, by decide⟩

theorem tagFree_subtext (s : Summary) : TagFree s.subtext := by
  unfold subtext
  split
  · exact s.tagFree_sweepText
  · rw [tagFree_append, tagFree_append]
    exact ⟨⟨s.tagFree_sweepText, by decide⟩, s.tagFree_trafficText⟩

end Summary

/-- A chart of a kind, from parts without tags. -/
theorem tagFree_text_build (kind : ChartKind) (records : List Record) (dark : Bool)
    {parts : List ChartPart} (h : ∀ part ∈ parts, ∀ s ∈ part.texts, TagFree s) :
    TagFree ((kind.chart (Summary.ofRecords records).subtext dark).build parts).text := by
  apply Chart.tagFree_text
  intro s hs
  rcases Chart.mem_texts_build.1 hs with hnew | ⟨part, hpart, hs⟩
  · have htitle : TagFree kind.title := by cases kind <;> decide
    have hcases : s = kind.title ∨ s = (Summary.ofRecords records).subtext := by
      simpa [ChartKind.chart, Chart.new, Chart.texts, Title.texts] using hnew
    rcases hcases with rfl | rfl
    · exact htitle
    · exact Summary.tagFree_subtext _
  · exact h part hpart s hs

theorem Lines.tagFree_chart (records : List Record) (dark : Bool) :
    TagFree (Lines.chart records dark).text := by
  apply tagFree_text_build
  simp +decide [ChartPart.texts, Axis.texts, Axis.value, Series.texts]

theorem Scatter.tagFree_label {records : List Record} {p : Point} (h : p ∈ points records) :
    TagFree p.label := by
  rw [points, build, Needs.collect_fst] at h
  obtain ⟨r, -, hr⟩ := List.mem_filterMap.1 h
  simp only [point?, Option.bind_eq_bind, Option.bind_eq_some_iff, Option.some.injEq] at hr
  obtain ⟨-, -, -, -, -, -, rfl⟩ := hr
  exact r.tagFree_label

theorem Scatter.tagFree_chart (records : List Record) (dark : Bool) :
    TagFree (Scatter.chart records dark).text := by
  apply tagFree_text_build
  have hcolors : ∀ s ∈ Colormap.viridis.hexStops, TagFree s := by decide
  have hlabels : ∀ p ∈ points records, TagFree p.label := fun p hp => tagFree_label hp
  simp only [List.forall_mem_cons, ChartPart.texts, Axis.texts, Axis.value, Axis.left, Series.texts,
    colorScale, List.map_map, List.forall_mem_map]
  exact ⟨List.forall_mem_nil _, by decide, by decide, by decide, ⟨by decide, hlabels⟩, hcolors,
    List.forall_mem_nil _⟩

theorem Grid.tagFree_heatmap (g : Grid) (records : List Record) (dark : Bool) :
    TagFree (g.heatmap (Summary.ofRecords records).subtext dark).text := by
  apply tagFree_text_build
  have hcolors : ∀ s ∈ Colormap.magma.hexStops, TagFree s := by decide
  have hnames (values : List Int) : ∀ s ∈ names values, TagFree s :=
    List.forall_mem_map.2 fun n _ => tagFree_int n
  simp only [List.forall_mem_cons, ChartPart.texts, Axis.texts, Axis.category, Series.texts,
    colorScale]
  exact ⟨List.forall_mem_nil _, ⟨by decide, hnames _⟩, ⟨by decide, hnames _⟩, by decide, hcolors,
    List.forall_mem_nil _⟩

/-- **No chart of a sweep has a tag**, whatever its records are. -/
theorem tagFree_text_ofRecords (records : List Record) (dark : Bool) :
    ∀ named ∈ NamedChart.ofRecords records dark, TagFree named.chart.text := by
  intro named hnamed
  simp only [NamedChart.ofRecords, Grid.chart?, List.cons_append, List.nil_append, List.mem_cons,
    Option.mem_toList, Option.map_eq_some_iff, Option.map_map] at hnamed
  rcases hnamed with rfl | rfl | ⟨g, -, rfl⟩
  · exact Lines.tagFree_chart records dark
  · exact Scatter.tagFree_chart records dark
  · exact g.tagFree_heatmap records dark

end SweepCharts
