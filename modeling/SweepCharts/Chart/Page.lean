import SweepCharts.Chart.Sweep

set_option autoImplicit false

/-! # Pages

A page shows one chart, or all charts of a sweep below each other. The drawing library is loaded
from its public address.
-/

namespace SweepCharts

/-- How charts are shown. -/
structure PageStyle where
  width : Nat
  height : Nat
  dark : Bool
  deriving DecidableEq, Repr

namespace Page

/-- A character of a text in a page. -/
def escapeChar (c : Char) : String :=
  if c = '&' then "&amp;"
  else if c = '<' then "&lt;"
  else if c = '>' then "&gt;"
  else if c = '"' then "&quot;"
  else if c = '\'' then "&#x27;"
  else if c = '\x60' then "&#x60;"
  else if c = '=' then "&#x3D;"
  else c.toString

/-- A text in a page. -/
def escape (text : String) : String := String.join (text.toList.map escapeChar)

/-! ## One chart -/

def singleScript (chart : Chart) (style : PageStyle) : String :=
  let theme := if style.dark then "'dark'" else "null"
  "      <script type=\"text/javascript\">\n" ++
  "          \n" ++
  "          var chart = echarts.init(document.getElementById('chart'), " ++ theme ++
    ", \x7b renderer: 'canvas' \x7d);\n" ++
  "          var option = " ++ chart.text ++ ";\n" ++
  "          chart.setOption(option);\n" ++
  "      </script>\n"

/-- The page of one chart. -/
def single (kind : ChartKind) (chart : Chart) (style : PageStyle) : String :=
  "<!DOCTYPE html>\n" ++
  "<html>\n" ++
  "  <head>\n" ++
  "    <meta charset=\"utf-8\" />\n" ++
  "    <title>" ++ escape kind.title ++ "</title>\n" ++
  "    <script src=\"https://cdn.jsdelivr.net/npm/echarts@5.4.2/dist/echarts.min.js\">" ++
    "</script>\n" ++
  "    <script src=\"https://cdn.jsdelivr.net/npm/echarts-gl@2.0.9/dist/echarts-gl.min.js\">" ++
    "</script>\n" ++
  "    <style> .container \x7b display: flex; justify-content: center; align-items: center; \x7d" ++
    " .item \x7b margin: auto; \x7d </style>\n" ++
  "  </head>\n" ++
  "  <body>\n" ++
  "      <div class=\"container\">\n" ++
  "        <div class=\"item\" id=\"chart\" style=\"width: " ++ toString style.width ++
    "px; height: " ++ toString style.height ++ "px\"></div>\n" ++
  "      </div>\n" ++
  "      \n" ++
  singleScript chart style ++
  "  </body>\n" ++
  "</html>"

/-! ## All charts -/

/-- A chart on the common page: its place, then the script that draws it. -/
def chartEntry (style : PageStyle) (index : Nat) (named : NamedChart) : String :=
  let id := "chart-" ++ toString index
  let theme := if style.dark then "dark" else ""
  "<div id=\"" ++ id ++ "\" data-chart=\"" ++ named.kind.stem ++ "\" style=\"width: " ++
    toString style.width ++ "px; height: " ++ toString style.height ++
    "px; margin: 0 auto 24px;\"></div>\n" ++
  "<script type=\"text/javascript\">\n" ++
  "  echarts.init(document.getElementById(\"" ++ id ++ "\"), \"" ++ theme ++ "\").setOption(" ++
    named.chart.text ++ ");\n" ++
  "</script>\n"

/-- The page of all charts of a sweep. -/
def combined (charts : List NamedChart) (style : PageStyle) : String :=
  let background := if style.dark then Chart.darkBackground else "#ffffff"
  let body := String.join (charts.zipIdx.map fun (named, index) => chartEntry style index named)
  "<!DOCTYPE html>\n" ++
  "<html lang=\"en\">\n" ++
  "<head>\n" ++
  "  <meta charset=\"utf-8\">\n" ++
  "  <title>Benchmark Charts</title>\n" ++
  "  <script src=\"https://cdn.jsdelivr.net/npm/echarts@5.5.1/dist/echarts.min.js\"></script>\n" ++
  "</head>\n" ++
  "<body style=\"background: " ++ background ++ ";\">\n" ++
  body ++ "</body>\n" ++
  "</html>\n"

end Page

end SweepCharts
