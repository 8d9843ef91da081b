import Mathlib.Data.List.Forall2
import SweepCharts.Chart.Page
import SweepCharts.Proofs.Chart.Tags
import SweepCharts.Proofs.Text.Occurrences

set_option autoImplicit false

/-! # The common page is not broken by input

The page of all charts has its tags from fixed texts alone, because no chart has one in its text. So
its tags can be counted, and each chart is the argument of the one script after its place.

* `isEntry_chartEntry`: one chart on the page.
* `combined_page_unbroken`: the whole page.
-/

namespace SweepCharts

/-- A pattern that starts with a tag, and nowhere else, does not occur in a text without tags. -/
theorem TagFree.occurs {pattern text : String} {rest : List Char}
    (hpattern : pattern.toList = '<' :: rest) (h : TagFree text) : Occurs pattern text 0 :=
  occurs_of_within hpattern h

namespace Page

/-- A chart on the common page: its place under an id and the name of its kind, then one script, which
gives the text of the chart to the drawing library. -/
structure IsEntry (index : Nat) (named : NamedChart) (entry : String) : Prop where
  parts : ∃ style call : String,
    entry = "<div id=\"chart-" ++ toString index ++ "\" data-chart=\"" ++ named.kind.stem ++ "\"" ++
      style ++ "></div>\n<script type=\"text/javascript\">" ++ call ++ ".setOption(" ++
      named.chart.text ++ ");\n</script>\n" ∧
    Within (fun c => c ≠ '<' ∧ c ≠ '>') style ∧ TagFree call ∧ occurrences ".setOption(" call = 0
  places : occurrences "<div id=\"chart-" entry = 1
  openings : occurrences "<script" entry = 1
  closings : occurrences "</script>" entry = 1

/-! ## One chart -/

/-- The style of a chart's place, after its name. -/
def placeStyle (style : PageStyle) : String :=
  " style=\"width: " ++ toString style.width ++ "px; height: " ++ toString style.height ++
    "px; margin: 0 auto 24px;\""

/-- The call that prepares a chart's place. -/
def initCall (style : PageStyle) (index : Nat) : String :=
  "\n  echarts.init(document.getElementById(\"chart-" ++ toString index ++ "\"), \"" ++
    (if style.dark then "dark" else "") ++ "\")"

theorem chartEntry_eq (style : PageStyle) (index : Nat) (named : NamedChart) :
    chartEntry style index named =
      "<div id=\"chart-" ++ toString index ++ "\" data-chart=\"" ++ named.kind.stem ++ "\"" ++
        placeStyle style ++ "></div>\n<script type=\"text/javascript\">" ++ initCall style index ++
        ".setOption(" ++ named.chart.text ++ ");\n</script>\n" := by
  -- both sides are joined from the same parts, once the fixed texts are cut alike
  have hplace : "<div id=\"chart-" = "<div id=\"" ++ "chart-" := by decide +kernel
  have hstyle : "\" style=\"width: " = "\"" ++ " style=\"width: " := by decide +kernel
  have hmargin :
      "px; margin: 0 auto 24px;\"></div>\n" = "px; margin: 0 auto 24px;\"" ++ "></div>\n" := by
    decide +kernel
  have hscript :
      "<script type=\"text/javascript\">\n" = "<script type=\"text/javascript\">" ++ "\n" := by
    decide +kernel
  have hbetween : "></div>\n<script type=\"text/javascript\">" =
      "></div>\n" ++ "<script type=\"text/javascript\">" := by decide +kernel
  have hinit : "\n  echarts.init(document.getElementById(\"chart-" =
      "\n" ++ ("  echarts.init(document.getElementById(\"" ++ "chart-") := by decide +kernel
  have hcall : "\").setOption(" = "\")" ++ ".setOption(" := by decide +kernel
  have hend : ");\n</script>\n" = ");\n" ++ "</script>\n" := by decide +kernel
  unfold chartEntry placeStyle initCall
  rw [hplace, hstyle, hmargin, hscript, hbetween, hinit, hcall, hend]
  simp only [String.append_assoc]

theorem tagFree_stem (kind : ChartKind) : TagFree kind.stem := by
  cases kind <;> decide

theorem within_placeStyle (style : PageStyle) :
    Within (fun c => c ≠ '<' ∧ c ≠ '>') (placeStyle style) := by
  have hdigit (c : Char) (h : c.isDigit = true) : c ≠ '<' ∧ c ≠ '>' := by
    constructor
    · exact ne_tag_of_isDigit c h
    · rintro rfl
      revert h
      decide
  have hnat (n : Nat) := within_toString_nat hdigit n
  unfold placeStyle
  rw [within_append, within_append, within_append, within_append]
  exact ⟨⟨⟨⟨by decide, hnat _⟩, by decide⟩, hnat _⟩, by decide⟩

theorem tagFree_initCall (style : PageStyle) (index : Nat) : TagFree (initCall style index) := by
  have htheme : TagFree (if style.dark then "dark" else "") := by
    split <;> decide
  unfold initCall
  rw [tagFree_append, tagFree_append, tagFree_append, tagFree_append]
  exact ⟨⟨⟨⟨by decide, tagFree_nat index⟩, by decide⟩, htheme⟩, by decide⟩

theorem occurs_initCall (style : PageStyle) (index : Nat) :
    Occurs ".setOption(" (initCall style index) 0 := by
  have hne : ".setOption(" ≠ "" := by decide
  have hdot (c : Char) (h : c.isDigit = true) : c ≠ '.' := by
    rintro rfl
    revert h
    decide
  have hstart : Occurs ".setOption(" "\n  echarts.init(document.getElementById(\"chart-" 0 :=
    occurs_ofList (by decide)
  have hindex : Occurs ".setOption(" (toString index) 0 :=
    occurs_of_within rfl (within_toString_nat hdot index)
  have hsecond : Occurs ".setOption(" "\"), \"" 0 := occurs_ofList (by decide)
  have htheme : Occurs ".setOption(" (if style.dark then "dark" else "") 0 := by
    split <;> exact occurs_ofList (by decide)
  have hend : Occurs ".setOption(" "\")" 0 := occurs_ofList (by decide)
  exact (((hstart.append hne hindex).append hne hsecond).append hne htheme).append hne hend

section
variable (style : PageStyle) (index : Nat) {named : NamedChart} (hnamed : TagFree named.chart.text)
include hnamed

/-- The tags of one chart on the page are those of its fixed texts. -/
theorem occurs_chartEntry {pattern : String} {rest : List Char} {m n k : Nat}
    (hpattern : pattern.toList = '<' :: rest) (hplace : Occurs pattern "<div id=\"chart-" m)
    (hopening : Occurs pattern "></div>\n<script type=\"text/javascript\">" n)
    (hclosing : Occurs pattern ");\n</script>\n" k) :
    Occurs pattern (chartEntry style index named) (m + n + k) := by
  have hne : pattern ≠ "" := by
    rintro rfl
    cases hpattern
  have hplain {text : String} (h : TagFree text) : Occurs pattern text 0 := h.occurs hpattern
  have hindex := hplain (tagFree_nat index)
  have hkey : Occurs pattern "\" data-chart=\"" 0 := hplain (by decide)
  have hquote : Occurs pattern "\"" 0 := hplain (by decide)
  have hstyle := hplain ((within_placeStyle style).mono fun c h => h.1)
  have hset : Occurs pattern ".setOption(" 0 := hplain (by decide)
  have hdiv := ((((hplace.append hne hindex).append hne hkey).append hne
    (hplain (tagFree_stem named.kind))).append hne hquote).append hne hstyle
  have hcall := ((hdiv.append hne hopening).append hne
    (hplain (tagFree_initCall style index))).append hne hset
  rw [chartEntry_eq]
  simpa using (hcall.append hne (hplain hnamed)).append hne hclosing

theorem occurs_place : Occurs "<div id=\"chart-" (chartEntry style index named) 1 :=
  occurs_chartEntry style index hnamed (m := 1) (n := 0) (k := 0) rfl
    (occurs_ofList (by decide)) (occurs_ofList (by decide)) (occurs_ofList (by decide))

theorem occurs_opening : Occurs "<script" (chartEntry style index named) 1 :=
  occurs_chartEntry style index hnamed (m := 0) (n := 1) (k := 0) rfl
    (occurs_ofList (by decide)) (occurs_ofList (by decide)) (occurs_ofList (by decide))

theorem occurs_closing : Occurs "</script>" (chartEntry style index named) 1 :=
  occurs_chartEntry style index hnamed (m := 0) (n := 0) (k := 1) rfl
    (occurs_ofList (by decide)) (occurs_ofList (by decide)) (occurs_ofList (by decide))

theorem isEntry_chartEntry : IsEntry index named (chartEntry style index named) where
  parts := ⟨placeStyle style, initCall style index, chartEntry_eq style index named,
    within_placeStyle style, tagFree_initCall style index, (occurs_initCall style index).2⟩
  places := (occurs_place style index hnamed).2
  openings := (occurs_opening style index hnamed).2
  closings := (occurs_closing style index hnamed).2

end

/-! ## All charts -/

/-- The page before its charts: one script, which loads the drawing library. -/
def front (style : PageStyle) : String :=
  "<!DOCTYPE html>\n" ++
  "<html lang=\"en\">\n" ++
  "<head>\n" ++
  "  <meta charset=\"utf-8\">\n" ++
  "  <title>Benchmark Charts</title>\n" ++
  "  <script src=\"https://cdn.jsdelivr.net/npm/echarts@5.5.1/dist/echarts.min.js\"></script>\n" ++
  "</head>\n" ++
  "<body style=\"background: " ++ (if style.dark then Chart.darkBackground else "#ffffff") ++
    ";\">\n"

/-- The page after its charts. -/
def back : String := "</body>\n" ++ "</html>\n"

theorem occurs_front (style : PageStyle) :
    Occurs "<div id=\"chart-" (front style) 0 ∧ Occurs "<script" (front style) 1 ∧
      Occurs "</script>" (front style) 1 := by
  unfold front Occurs occurrences Chart.darkBackground
  cases style.dark <;>
    simp only [Bool.false_eq_true, ↓reduceIte, String.toList_append, String.reduceToList] <;>
    decide +kernel

theorem occurs_back :
    Occurs "<div id=\"chart-" back 0 ∧ Occurs "<script" back 0 ∧ Occurs "</script>" back 0 := by
  unfold back Occurs occurrences
  simp only [String.toList_append, String.reduceToList]
  decide +kernel

/-- The charts of a page, one after the other. -/
def entries (charts : List NamedChart) (style : PageStyle) : List String :=
  charts.zipIdx.map fun (named, index) => chartEntry style index named

theorem combined_eq (charts : List NamedChart) (style : PageStyle) :
    combined charts style = front style ++ String.join (entries charts style) ++ back := by
  rw [back, ← String.append_assoc]
  rfl

/-- The counts of a pattern in the parts of a page. -/
theorem occurs_combined {pattern : String} {charts : List NamedChart} {style : PageStyle} {n : Nat}
    (hne : pattern ≠ "") (hfront : Occurs pattern (front style) n) (hback : Occurs pattern back 0)
    (hentry : ∀ named ∈ charts, ∀ index, Occurs pattern (chartEntry style index named) 1) :
    Occurs pattern (combined charts style) (charts.length + n) := by
  have hjoin : Occurs pattern (String.join (entries charts style)) charts.zipIdx.length :=
    Occurs.join hne _ _ fun e he => hentry e.1 (List.fst_mem_of_mem_zipIdx he) e.2
  rw [combined_eq]
  simpa [Nat.add_comm] using (hfront.append hne hjoin).append hne hback

/-- **Input text cannot break the common page.** The page of a sweep has a place for each of its
charts, under ids that count from zero, in their order, and each place is followed by the one script
that draws it. There is one more script, which loads the drawing library, and no chart has a `<` in
its text, whatever its records are. -/
theorem combined_page_unbroken (records : List Record) (dark : Bool) (style : PageStyle) :
    let charts := NamedChart.ofRecords records dark
    let page := combined charts style
    occurrences "<div id=\"chart-" page = charts.length ∧
    occurrences "<script" page = charts.length + 1 ∧
    occurrences "</script>" page = charts.length + 1 ∧
    (∀ named ∈ charts, '<' ∉ named.chart.text.toList) ∧
    ∃ (front back : String) (entries : List String),
      page = front ++ String.join entries ++ back ∧
      occurrences "<div id=\"chart-" front = 0 ∧ occurrences "<div id=\"chart-" back = 0 ∧
      occurrences "<script" back = 0 ∧ occurrences "</script>" back = 0 ∧
      List.Forall₂ (fun e entry => IsEntry e.2 e.1 entry) charts.zipIdx entries := by
  intro charts page
  have hcharts : ∀ named ∈ charts, TagFree named.chart.text := tagFree_text_ofRecords records dark
  obtain ⟨hplaces, hopenings, hclosings⟩ := occurs_front style
  obtain ⟨hnoPlace, hnoOpening, hnoClosing⟩ := occurs_back
  refine ⟨(occurs_combined (by decide) hplaces hnoPlace ?_).2,
    (occurs_combined (by decide) hopenings hnoOpening ?_).2,
    (occurs_combined (by decide) hclosings hnoClosing ?_).2, ?_,
    front style, back, entries charts style, combined_eq charts style, hplaces.2, hnoPlace.2,
    hnoOpening.2, hnoClosing.2, ?_⟩
  · exact fun named hnamed index => occurs_place style index (hcharts named hnamed)
  · exact fun named hnamed index => occurs_opening style index (hcharts named hnamed)
  · exact fun named hnamed index => occurs_closing style index (hcharts named hnamed)
  · exact fun named hnamed hmem => hcharts named hnamed '<' hmem rfl
  · rw [entries, List.forall₂_map_right_iff, List.forall₂_same]
    exact fun e he => isEntry_chartEntry style e.2 (hcharts e.1 (List.fst_mem_of_mem_zipIdx he))

end Page

end SweepCharts
