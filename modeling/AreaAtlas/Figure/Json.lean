import AreaAtlas.Figure.Basic
import AreaAtlas.Json

/-!
# Figures as JSON documents

The document of a figure has the attributes that a plotting program reads: the traces under `data`,
and under `layout` the title, the axes, the legend, the margins and the menu.
-/

namespace AreaAtlas

/-- The number `n / d`. -/
def Json.ratio (n d : Nat) : Json :=
  .number (Binary.ofRatio false n d)

/-- Each pair of places as two numbers and a gap. -/
def Trace.stroke (coordinate : Position → Binary64) (segments : List (Position × Position)) : Json :=
  .array (segments.flatMap fun (start, finish) =>
    [.number (coordinate start), .number (coordinate finish), .null])

/-- The attributes of a trace. -/
def Trace.toJson : Trace → Json
  | .lines style segments =>
    .object [("type", .text "scatter"),
      ("x", stroke (·.x) segments),
      ("y", stroke (·.y) segments),
      ("mode", .text "lines"),
      ("line", .object [("color", .text style.color), ("width", .integer style.width),
        ("dash", .text style.dash)]),
      ("hoverinfo", .text "skip"),
      ("name", .text style.name),
      ("legendgroup", .text Layer.connections.name)]
  | .markers style labelled nodes =>
    .object [("type", .text "scatter"),
      ("x", .array (nodes.map fun info => .number info.position.x)),
      ("y", .array (nodes.map fun info => .number info.position.y)),
      ("mode", .text (if labelled then "markers+text" else "markers")),
      ("marker", .object [("size", .integer style.size), ("color", .text style.color),
        ("symbol", .text style.symbol), ("opacity", Json.ratio 9 10)]),
      ("text", .array (nodes.map fun info => .text (if labelled then info.name else ""))),
      ("textposition", .text "top center"),
      ("textfont", .object [("size", .integer 12), ("color", .text "black")]),
      ("hovertext", .array (nodes.map fun info => .text info.hoverText)),
      ("hoverinfo", .text "text"),
      ("name", .text style.name),
      ("legendgroup", .text Layer.nodes.name)]

/-- The attributes of an entry of the menu. -/
def MenuButton.toJson (b : MenuButton) : Json :=
  .object [("label", .text b.label), ("method", .text "restyle"),
    ("args", .array [.object [("visible",
      .array (b.visible.map fun shown => if shown then .bool true else .text "legendonly"))]])]

namespace Figure

/-- The attributes of the legend. -/
def legendJson : Json :=
  .object [("yanchor", .text "top"), ("y", Json.ratio 99 100), ("xanchor", .text "left"),
    ("x", Json.ratio 1 100), ("itemclick", .text "toggle"),
    ("itemdoubleclick", .text "toggleothers"), ("groupclick", .text "toggleitem")]

/-- The attributes of the menu. -/
def menuJson (figure : Figure) : Json :=
  .object [("type", .text "dropdown"), ("direction", .text "down"),
    ("buttons", .array (figure.menu.map MenuButton.toJson)),
    ("pad", .object [("r", .integer 10), ("t", .integer 10)]), ("showactive", .bool true),
    ("x", Json.ratio 0 1), ("xanchor", .text "left"), ("y", Json.ratio 115 100),
    ("yanchor", .text "top")]

/-- The attributes of the layout. -/
def layoutJson (figure : Figure) : Json :=
  .object [("title", .object [("text", .text figure.title)]),
    ("xaxis", .object [("title", .object [("text", .text "X")])]),
    ("yaxis", .object [("title", .object [("text", .text "Y")]), ("scaleanchor", .text "x"),
      ("scaleratio", .integer 1)]),
    ("showlegend", .bool true),
    ("legend", legendJson),
    ("margin", .object [("l", .integer 0), ("r", .integer 0), ("t", .integer 80),
      ("b", .integer 0)]),
    ("updatemenus", .array [figure.menuJson])]

/-- The document of a figure. -/
def toJson (figure : Figure) : Json :=
  .object [("data", .array (figure.traces.map Trace.toJson)), ("layout", figure.layoutJson)]

end Figure

end AreaAtlas
