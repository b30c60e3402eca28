import Jianpu.Text.Markup

set_option autoImplicit false

/-!
Sheets as HTML pages. Every drawing has a card of its own on the page, and prints on a page of its
own; title and subtitle are text, so markup in them shows as it was typed.
-/
namespace Jianpu.Page

/-- The lines of the page from its start to the title. -/
def headLines : List String :=
  [ "<!DOCTYPE html>",
    "<html lang=\"en\">",
    "<head>",
    "  <meta charset=\"UTF-8\" />",
    "  <meta name=\"viewport\" content=\"width=device-width, initial-scale=1.0\" />" ]

/-- The lines of the style sheet. -/
def styleLines : List String :=
  [ "  <style>",
    "    *, *::before, *::after \x7b box-sizing: border-box; \x7d",
    "    body \x7b",
    "      font-family: Georgia, serif;",
    "      background: #f0f0f0;",
    "      margin: 0;",
    "      padding: 2rem;",
    "    \x7d",
    "    h1 \x7b",
    "      text-align: center;",
    "      font-size: 1.6rem;",
    "      margin-bottom: 0.5rem;",
    "      color: #222;",
    "    \x7d",
    "    .subtitle \x7b",
    "      text-align: center;",
    "      color: #666;",
    "      margin-bottom: 2rem;",
    "    \x7d",
    "    .page \x7b",
    "      background: #fff;",
    "      box-shadow: 0 2px 8px rgba(0, 0, 0, 0.15);",
    "      margin: 0 auto 2rem;",
    "      max-width: 960px;",
    "      padding: 1rem;",
    "      overflow-x: auto;",
    "    \x7d",
    "    .page svg \x7b",
    "      display: block;",
    "      margin: 0 auto;",
    "    \x7d",
    "    @media print \x7b",
    "      body \x7b",
    "        background: #fff;",
    "        padding: 0;",
    "        margin: 0;",
    "      \x7d",
    "      .page \x7b",
    "        box-shadow: none;",
    "        page-break-after: always;",
    "        max-width: 100%;",
    "        padding: 0;",
    "        margin: 0;",
    "      \x7d",
    "      .page:last-child \x7b",
    "        page-break-after: avoid;",
    "      \x7d",
    "    \x7d",
    "  </style>" ]

/-- The title as an element of the page's head. -/
def titleElement (title : String) : String :=
  "  <title>" ++ Text.Markup.escape title ++ "</title>"

/-- Title and subtitle above the cards, each on its own line and left out when empty. -/
def heading (title subtitle : String) : String :=
  (if title.isEmpty then "" else "  <h1>" ++ Text.Markup.escape title ++ "</h1>\n")
    ++ (if subtitle.isEmpty then ""
      else "  <p class=\"subtitle\">" ++ Text.Markup.escape subtitle ++ "</p>\n")

/-- The card of a drawing. -/
def card (svg : String) : String :=
  "  <div class=\"page\">" ++ svg ++ "</div>"

/-- The page of a sheet. -/
def render (title : String) (svgs : List String) (subtitle : String) : String :=
  "\n".intercalate
    (headLines ++ [titleElement title] ++ styleLines
      ++ ["</head>", "<body>", heading title subtitle ++ "\n".intercalate (svgs.map card), "</body>",
        "</html>"])

end Jianpu.Page
