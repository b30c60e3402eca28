import Jianpu.Proofs.Drawing.Elements
import Jianpu.Sheet.Export

/-! Pages of drawings, read back. Each drawing is on a card of its own, and the title and the
subtitle are text, whatever they say. -/

set_option autoImplicit false

namespace Jianpu

open Number (Amount)
open Text.Markup

namespace Page

/-! Cards -/

/-- The tag that a card begins with. -/
def cardTag : String := "div class=\"page\""

/-- The tag that a card ends with. -/
def cardEnd : String := "/div"

/-- The tag that the title begins with. -/
def titleTag : String := "title"

/-- The tag that the subtitle begins with. -/
def subtitleTag : String := "p class=\"subtitle\""

/-- What is on each card of a page, in order. -/
def cards : List Token → List (List Token)
  | [] => []
  | token :: rest =>
    if token = .tag cardTag then rest.takeWhile (· ≠ .tag cardEnd) :: cards rest else cards rest

/-- Tokens that make no card, no title and no subtitle. -/
def IsQuiet (tokens : List Token) : Prop :=
  ∀ mark ∈ [cardTag, cardEnd, titleTag, subtitleTag], .tag mark ∉ tokens

instance (tokens : List Token) : Decidable (IsQuiet tokens) :=
  inferInstanceAs
    (Decidable (∀ mark ∈ [cardTag, cardEnd, titleTag, subtitleTag], .tag mark ∉ tokens))

theorem cards_append {front : List Token} (absent : .tag cardTag ∉ front) (rest : List Token) :
    cards (front ++ rest) = cards rest := by
  induction front with
  | nil => rfl
  | cons token front ih =>
      obtain ⟨other, others⟩ := not_or.mp (List.mem_cons.not.mp absent)
      rw [List.cons_append, cards, if_neg (Ne.symm other), ih others]

theorem saidAfter_append {body : String} {front : List Token} (absent : .tag body ∉ front)
    (rest : List Token) :
    saidAfter (· = body) (front ++ rest) = saidAfter (· = body) rest := by
  induction front with
  | nil => rfl
  | cons token front ih =>
      obtain ⟨other, others⟩ := not_or.mp (List.mem_cons.not.mp absent)
      rw [List.cons_append]
      cases token with
      | tag name =>
          rw [saidAfter_other_tag (by simpa using fun same : name = body => other (same ▸ rfl)),
            ih others]
      | char c => exact ih others

/-- A picture makes no card and no heading. -/
theorem isQuiet_of_isPicture {drawing : Drawing Amount} {tokens : List Token}
    (isPicture : Svg.IsPicture drawing tokens) : IsQuiet tokens := by
  have known : ∀ name ∈ names tokens,
      name ∈ ["svg", "rect", "text", "/text", "line", "circle", "/svg"] := by
    rw [isPicture.names]
    simp only [List.forall_mem_cons, List.forall_mem_append, List.forall_mem_flatMap]
    refine ⟨by decide, by decide, fun primitive _ => ?_, by decide⟩
    cases primitive <;> simp [Primitive.tagNames]
  have absent : ∀ body, tagName body ∉ ["svg", "rect", "text", "/text", "line", "circle", "/svg"] →
      .tag body ∉ tokens := by
    intro body other member
    exact other (known _ (List.mem_filterMap.mpr ⟨_, member, rfl⟩))
  simp only [IsQuiet, List.forall_mem_cons]
  exact ⟨absent _ (by decide), absent _ (by decide), absent _ (by decide), absent _ (by decide),
    List.forall_mem_nil _⟩

/-- A picture on its card. -/
def cardTokens (picture : List Token) : List Token :=
  content "  " ++ .tag cardTag :: picture ++ [.tag cardEnd]

theorem read_card {svg : String} {picture : List Token} (known : read svg = some picture) :
    read (card svg) = some (cardTokens picture) := by
  have opening : read "  <div class=\"page\">" = some (content "  " ++ [.tag cardTag]) := by
    decide +kernel
  have closing : read "</div>" = some [.tag cardEnd] := by decide
  refine (read_append (read_append opening known) closing).trans (congrArg some ?_)
  simp only [cardTokens, List.append_assoc, List.cons_append, List.nil_append]

theorem cards_cardTokens_append {picture : List Token} (isQuiet : IsQuiet picture)
    (rest : List Token) : cards (cardTokens picture ++ rest) = picture :: cards rest := by
  have blank : .tag cardTag ∉ content "  " := by decide
  have other : Token.tag cardEnd ≠ .tag cardTag := by decide
  have whole : (picture ++ .tag cardEnd :: rest).takeWhile (· ≠ .tag cardEnd) = picture := by
    rw [List.takeWhile_append_of_pos]
    · simp
    · intro token member
      exact decide_eq_true fun same => isQuiet cardEnd (by simp) (same ▸ member)
  have shape : cardTokens picture ++ rest =
      content "  " ++ .tag cardTag :: (picture ++ .tag cardEnd :: rest) := by
    simp [cardTokens]
  rw [shape, cards_append blank, cards, if_pos rfl, whole,
    cards_append (isQuiet cardTag (by simp)), cards, if_neg other]

/-- All cards of a page, each on its own line. -/
def deck (pictures : List (List Token)) : List Token :=
  (content "\n").intercalate (pictures.map cardTokens)

theorem cards_deck_append {pictures : List (List Token)}
    (areQuiet : ∀ picture ∈ pictures, IsQuiet picture) (rest : List Token) :
    cards (deck pictures ++ rest) = pictures ++ cards rest := by
  have gap : .tag cardTag ∉ content "\n" := by decide
  induction pictures with
  | nil => rfl
  | cons picture pictures ih =>
      obtain ⟨isQuiet, others⟩ := List.forall_mem_cons.mp areQuiet
      cases pictures with
      | nil =>
          rw [deck, List.map_singleton, List.intercalate_singleton]
          exact cards_cardTokens_append isQuiet rest
      | cons next pictures =>
          rw [deck, List.map_cons, List.map_cons, List.intercalate_cons_cons, List.append_assoc,
            List.append_assoc, cards_cardTokens_append isQuiet, cards_append gap, List.cons_append]
          exact congrArg (picture :: ·) (ih others)

theorem not_mem_deck {mark : String} {pictures : List (List Token)}
    (absent : ∀ picture ∈ pictures, .tag mark ∉ picture) (other : mark ≠ cardTag ∧ mark ≠ cardEnd) :
    .tag mark ∉ deck pictures := by
  have onCard : ∀ picture ∈ pictures, .tag mark ∉ cardTokens picture := by
    intro picture member
    simpa [cardTokens, content, other] using absent picture member
  rw [deck]
  induction pictures with
  | nil => simp
  | cons picture pictures ih =>
      obtain ⟨first, others⟩ := List.forall_mem_cons.mp onCard
      cases pictures with
      | nil => rwa [List.map_singleton, List.intercalate_singleton]
      | cons next pictures =>
          rw [List.map_cons, List.map_cons, List.intercalate_cons_cons, List.mem_append,
            List.mem_append, not_or, not_or]
          exact ⟨⟨first, by simp [content]⟩,
            ih (fun picture member => absent picture (List.mem_cons_of_mem _ member)) others⟩

/-! The frame of the page -/

/-- True of texts that make no card, no title and no subtitle. -/
def ReadsQuietly (text : String) : Prop :=
  ∃ tokens, read text = some tokens ∧ IsQuiet tokens

theorem IsQuiet.append {front back : List Token} (isFirst : IsQuiet front) (isSecond : IsQuiet back) :
    IsQuiet (front ++ back) := by
  intro mark listed member
  exact (List.mem_append.mp member).elim (isFirst mark listed) (isSecond mark listed)

theorem ReadsQuietly.append {first second : String} (readsFirst : ReadsQuietly first)
    (readsSecond : ReadsQuietly second) : ReadsQuietly (first ++ second) := by
  obtain ⟨front, readFront, quietFront⟩ := readsFirst
  obtain ⟨back, readBack, quietBack⟩ := readsSecond
  exact ⟨front ++ back, read_append readFront readBack, quietFront.append quietBack⟩

theorem readsQuietly_lineFeed : ReadsQuietly "\n" :=
  ⟨content "\n", by decide, by decide⟩

theorem readsQuietly_intercalate {lines : List String}
    (checked : (lines.all fun line => (read line).any fun tokens => IsQuiet tokens) = true) :
    ReadsQuietly ("\n".intercalate lines) := by
  induction lines with
  | nil => exact ⟨[], rfl, by decide⟩
  | cons line lines ih =>
      rw [List.all_cons, Bool.and_eq_true] at checked
      have first : ReadsQuietly line := by
        obtain ⟨tokens, known, isQuiet⟩ := (Option.any_eq_true ..).mp checked.1
        exact ⟨tokens, known, of_decide_eq_true isQuiet⟩
      cases lines with
      | nil => rwa [String.intercalate_singleton]
      | cons next lines =>
          rw [String.intercalate_cons_cons]
          exact (first.append readsQuietly_lineFeed).append (ih checked.2)

/-- The lines of a page before its title. -/
def top : String := "\n".intercalate headLines ++ "\n"

/-- The lines between the title and the heading. -/
def middle : String := "\n" ++ "\n".intercalate (styleLines ++ ["</head>", "<body>"]) ++ "\n"

/-- The lines behind the cards. -/
def bottom : String := "\n" ++ "\n".intercalate ["</body>", "</html>"]

theorem readsQuietly_top : ReadsQuietly top :=
  (readsQuietly_intercalate (by decide +kernel)).append readsQuietly_lineFeed

theorem readsQuietly_middle : ReadsQuietly middle :=
  (readsQuietly_lineFeed.append (readsQuietly_intercalate (by decide +kernel))).append
    readsQuietly_lineFeed

theorem readsQuietly_bottom : ReadsQuietly bottom :=
  readsQuietly_lineFeed.append (readsQuietly_intercalate (by decide +kernel))

theorem render_eq (title : String) (svgs : List String) (subtitle : String) :
    render title svgs subtitle =
      top ++ (titleElement title ++ (middle ++ (heading title subtitle ++
        ("\n".intercalate (svgs.map card) ++ bottom)))) := by
  have lines : ∀ first rest : List String, first ≠ [] → rest ≠ [] →
      "\n".intercalate (first ++ rest) = "\n".intercalate first ++ "\n" ++ "\n".intercalate rest :=
    fun first rest => String.intercalate_append_of_ne_nil
  have split : headLines ++ [titleElement title] ++ styleLines ++ ["</head>", "<body>",
      heading title subtitle ++ "\n".intercalate (svgs.map card), "</body>", "</html>"] =
      headLines ++ ([titleElement title] ++ ((styleLines ++ ["</head>", "<body>"]) ++
        ([heading title subtitle ++ "\n".intercalate (svgs.map card)] ++ ["</body>", "</html>"]))) := by
    simp only [List.append_assoc, List.cons_append, List.nil_append]
  have nonempty : styleLines ++ ["</head>", "<body>"] ≠ [] := by
    simp
  rw [render, split, lines headLines _ (by simp [headLines]) (by simp),
    lines [_] _ (by simp) (by simp),
    lines _ _ nonempty (by simp), lines [_] _ (by simp) (by simp), String.intercalate_singleton,
    String.intercalate_singleton, top, middle, bottom]
  simp only [String.append_assoc]

/-! The page -/

/-- What a page shows: its cards, its title, and its subtitle if there is one. -/
structure Shows (title subtitle : String) (pictures : List (List Token)) (tokens : List Token) :
    Prop where
  cards : cards tokens = pictures
  title : saidAfter (· = titleTag) tokens = [title]
  subtitle : saidAfter (· = subtitleTag) tokens = if subtitle.isEmpty then [] else [subtitle]

/-- Text between two tags, escaped. -/
def labelled (before body text ending after : String) : List Token :=
  content before ++ (.tag body :: content (escape text) ++ .tag ending :: content after)

theorem read_labelled {opening closing before after body ending : String}
    (readOpening : read opening = some (content before ++ [.tag body]))
    (readClosing : read closing = some (.tag ending :: content after)) (text : String) :
    read (opening ++ escape text ++ closing) = some (labelled before body text ending after) := by
  refine (read_append (read_append readOpening (read_escape text)) readClosing).trans
    (congrArg some ?_)
  simp only [labelled, List.append_assoc, List.cons_append, List.nil_append]

theorem tag_mem_labelled {before body text ending after mark : String} :
    .tag mark ∈ labelled before body text ending after ↔ mark = body ∨ mark = ending := by
  simp [labelled, content]

theorem saidAfter_labelled {before body ending after : String} (text : String)
    (other : ending ≠ body) (rest : List Token) :
    saidAfter (· = body) (labelled before body text ending after ++ rest) =
      text :: saidAfter (· = body) rest := by
  have shape : labelled before body text ending after ++ rest =
      content before ++
        (.tag body :: content (escape text) ++ .tag ending :: (content after ++ rest)) := by
    simp [labelled]
  rw [shape, saidAfter_content_append, saidAfter_escape (by simp),
    saidAfter_other_tag (by simpa using other), saidAfter_content_append]

theorem read_titleElement (title : String) :
    read (titleElement title) = some (labelled "  " titleTag title "/title" "") :=
  read_labelled (by decide +kernel) (by decide +kernel) title

/-- The tokens above the cards. -/
def headingTokens (title subtitle : String) : List Token :=
  (if title.isEmpty then [] else labelled "  " "h1" title "/h1" "\n") ++
    if subtitle.isEmpty then [] else labelled "  " subtitleTag subtitle "/p" "\n"

theorem read_heading (title subtitle : String) :
    read (heading title subtitle) = some (headingTokens title subtitle) := by
  unfold heading headingTokens
  refine read_append ?_ ?_
  · split
    · rfl
    · exact read_labelled (by decide +kernel) (by decide +kernel) title
  · split
    · rfl
    · exact read_labelled (by decide +kernel) (by decide +kernel) subtitle

theorem not_mem_headingTokens {mark title subtitle : String}
    (other : mark ∉ ["h1", "/h1", subtitleTag, "/p"]) :
    .tag mark ∉ headingTokens title subtitle := by
  simp only [List.mem_cons, List.not_mem_nil, or_false, not_or] at other
  simp only [headingTokens, List.mem_append, not_or]
  refine ⟨?_, ?_⟩
  · split
    · simp
    · exact fun member => (tag_mem_labelled.mp member).elim other.1 other.2.1
  · split
    · simp
    · exact fun member => (tag_mem_labelled.mp member).elim other.2.2.1 other.2.2.2

theorem saidAfter_headingTokens (title subtitle : String) (rest : List Token) :
    saidAfter (· = subtitleTag) (headingTokens title subtitle ++ rest) =
      (if subtitle.isEmpty then [] else [subtitle]) ++ saidAfter (· = subtitleTag) rest := by
  have quiet : .tag subtitleTag ∉
      (if title.isEmpty then [] else labelled "  " "h1" title "/h1" "\n") := by
    split
    · simp
    · exact fun member => absurd (tag_mem_labelled.mp member) (by decide)
  rw [headingTokens, List.append_assoc, saidAfter_append quiet]
  split
  · rfl
  · exact saidAfter_labelled subtitle (by decide) rest

/-- A page is made of its frame and of the texts and pictures it is given. -/
theorem exists_read_render (title subtitle : String) {svgs : List String}
    {pictures : List (List Token)}
    (each : List.Forall₂ (fun svg picture => read svg = some picture) svgs pictures)
    (areQuiet : ∀ picture ∈ pictures, IsQuiet picture) :
    ∃ tokens, read (render title svgs subtitle) = some tokens ∧
      Shows title subtitle pictures tokens := by
  obtain ⟨topTokens, readTop, quietTop⟩ := readsQuietly_top
  obtain ⟨middleTokens, readMiddle, quietMiddle⟩ := readsQuietly_middle
  obtain ⟨bottomTokens, readBottom, quietBottom⟩ := readsQuietly_bottom
  have readDeck : read ("\n".intercalate (svgs.map card)) = some (deck pictures) := by
    refine read_intercalate (by decide) ?_
    rw [List.forall₂_map_left_iff, List.forall₂_map_right_iff]
    exact each.imp fun svg picture known => read_card known
  rw [render_eq, read_append readTop (read_append (read_titleElement title) (read_append readMiddle
    (read_append (read_heading title subtitle) (read_append readDeck readBottom))))]
  have pictured : ∀ mark ∈ [titleTag, subtitleTag], .tag mark ∉ deck pictures := by
    intro mark listed
    refine not_mem_deck (fun picture member => areQuiet picture member mark ?_) ?_
    · exact List.mem_cons_of_mem _ (List.mem_cons_of_mem _ listed)
    · revert mark
      decide
  refine ⟨_, rfl, ?_, ?_, ?_⟩
  · rw [cards_append (quietTop _ (by simp)),
      cards_append fun member => absurd (tag_mem_labelled.mp member) (by decide),
      cards_append (quietMiddle _ (by simp)), cards_append (not_mem_headingTokens (by decide)),
      cards_deck_append areQuiet, ← List.append_nil bottomTokens,
      cards_append (quietBottom _ (by simp)), cards, List.append_nil]
  · rw [saidAfter_append (quietTop _ (by simp)), saidAfter_labelled title (by decide),
      saidAfter_append (quietMiddle _ (by simp)),
      saidAfter_append (not_mem_headingTokens (by decide)), saidAfter_append (pictured _ (by simp)),
      ← List.append_nil bottomTokens, saidAfter_append (quietBottom _ (by simp))]
    rfl
  · rw [saidAfter_append (quietTop _ (by simp)),
      saidAfter_append fun member => absurd (tag_mem_labelled.mp member) (by decide),
      saidAfter_append (quietMiddle _ (by simp)), saidAfter_headingTokens,
      saidAfter_append (pictured _ (by simp)), ← List.append_nil bottomTokens,
      saidAfter_append (quietBottom _ (by simp))]
    exact List.append_nil _

end Page

namespace Sheet

/-! The page of a document -/

theorem length_drawings? {document : Document} {drawings : List (Drawing Amount)}
    (laidOut : Layout.drawings? document = some drawings) :
    drawings.length = document.blocks.length := by
  have counted : drawings.flatMap (fun _ => [()]) = document.sections.flatMap fun _ => [()] :=
    Layout.flatMap_of_mapM (fun _ => rfl) laidOut
  have lengths := congrArg List.length counted
  simp only [List.length_flatMap, List.length_singleton, List.map_const', List.sum_replicate_nat,
    mul_one, Document.sections, List.length_map] at lengths
  exact lengths

/-- The drawings of a document can be read as pictures of them. -/
theorem exists_depicts_all {document : Document} {drawings : List (Drawing Amount)}
    (laidOut : Layout.drawings? document = some drawings)
    (fits : ∀ drawing ∈ drawings, ∀ number ∈ drawing.numbers, number.toFloat?.isSome) :
    ∃ (svg : Drawing Amount → String) (picture : Drawing Amount → List Token),
      ∀ drawing ∈ drawings, Svg.Depicts drawing (svg drawing) (picture drawing) := by
  have each : ∀ drawing ∈ drawings, ∃ svg picture, Svg.Depicts drawing svg picture := by
    intro drawing member
    obtain ⟨entry, -, drawn⟩ := Layout.mem_of_mapM laidOut member
    exact Svg.exists_depicts (fits drawing member) (Layout.isPlain_draw? drawn)
  choose! svg picture depicts using each
  exact ⟨svg, picture, depicts⟩

theorem mapM_render {drawings : List (Drawing Amount)} {svg : Drawing Amount → String}
    (rendered : ∀ drawing ∈ drawings, Svg.render drawing = .ok (svg drawing)) :
    drawings.mapM Svg.render = .ok (drawings.map svg) := by
  induction drawings with
  | nil => rfl
  | cons drawing drawings ih =>
      obtain ⟨first, others⟩ := List.forall_mem_cons.mp rendered
      rw [List.mapM_cons, first, ih others]
      rfl

theorem drawingPage_some (title : String) (drawings : List (Drawing Amount)) (subtitle : String) :
    drawingPage title (some drawings) subtitle =
      ((drawings.mapM Svg.render).mapError .number).map fun svgs =>
        Page.render title svgs subtitle := by
  show ((drawings.mapM Svg.render).mapError SheetError.number >>= fun svgs =>
    pure (Page.render title svgs subtitle)) = _
  cases drawings.mapM Svg.render <;> rfl

/-- Text never becomes markup. Each block of a document becomes one drawing; and if no whole number
in the drawings is beyond binary64, each becomes an SVG text that reads as a picture of it, and the
page of them, under any title and album, reads as one card for each that holds this very text, as
the title and, if there is an album, as the album. If some number is beyond binary64, the page is
refused. -/
theorem text_never_becomes_markup (document : Document) (title album : String)
    {drawings : List (Drawing Amount)} (laidOut : Layout.drawings? document = some drawings) :
    drawings.length = document.blocks.length ∧
    ((∀ drawing ∈ drawings, ∀ number ∈ drawing.numbers, number.toFloat?.isSome) →
      ∃ svgs page tokens, drawings.mapM Svg.render = .ok svgs ∧
        List.Forall₂ (fun drawing svg => ∃ picture, Svg.Depicts drawing svg picture) drawings svgs ∧
        drawingPage title (some drawings) album = .ok page ∧ read page = some tokens ∧
        (Page.cards tokens).map source = svgs ∧
        saidAfter (· = Page.titleTag) tokens = [title] ∧
        saidAfter (· = Page.subtitleTag) tokens = if album.isEmpty then [] else [album]) ∧
    (¬ (∀ drawing ∈ drawings, ∀ number ∈ drawing.numbers, number.toFloat?.isSome) →
      drawingPage title (some drawings) album = .error (.number .tooLarge)) := by
  refine ⟨length_drawings? laidOut, fun fits => ?_, fun beyond => ?_⟩
  · obtain ⟨svg, picture, depicts⟩ := exists_depicts_all laidOut fits
    have rendered := mapM_render fun drawing member => (depicts drawing member).rendered
    have each : List.Forall₂ (fun svg picture => read svg = some picture)
        (drawings.map svg) (drawings.map picture) := by
      rw [List.forall₂_map_left_iff, List.forall₂_map_right_iff, List.forall₂_same]
      exact fun drawing member => (depicts drawing member).read
    have areQuiet : ∀ shown ∈ drawings.map picture, Page.IsQuiet shown :=
      List.forall_mem_map.mpr fun drawing member =>
        Page.isQuiet_of_isPicture (depicts drawing member).isPicture
    obtain ⟨tokens, readPage, shows⟩ := Page.exists_read_render title album each areQuiet
    refine ⟨drawings.map svg, Page.render title (drawings.map svg) album, tokens, rendered, ?_, ?_,
      readPage, ?_, shows.title, shows.subtitle⟩
    · rw [List.forall₂_map_right_iff, List.forall₂_same]
      exact fun drawing member => ⟨picture drawing, depicts drawing member⟩
    · rw [drawingPage_some, rendered]
      rfl
    · rw [shows.cards, List.map_map]
      exact List.map_congr_left fun drawing member => source_of_read (depicts drawing member).read
  · rcases Svg.succeedsWhen_mapM Svg.succeedsWhen_render drawings with ⟨fits, -⟩ | ⟨-, refused⟩
    · exact absurd fits beyond
    · rw [drawingPage_some, refused]
      rfl

/-- Chord text and titles that are made of tags. -/
theorem tags_in_text_never_become_markup :
    let document : Document := { blocks := [⟨.chords, "<b>"⟩] }
    ∃ drawings page tokens, Layout.drawings? document = some drawings ∧
      drawingPage "</title>" (some drawings) "&lt;" = .ok page ∧ read page = some tokens ∧
      saidAfter (· = Page.titleTag) tokens = ["</title>"] ∧
      saidAfter (· = Page.subtitleTag) tokens = ["&lt;"] := by
  intro document
  have measured : ((Layout.drawings? document).all fun drawings =>
      drawings.all fun drawing => drawing.numbers.all (·.toFloat?.isSome)) = true := by
    decide +kernel
  obtain ⟨drawings, laidOut⟩ : ∃ drawings, Layout.drawings? document = some drawings :=
    Option.isSome_iff_exists.mp (by decide +kernel)
  rw [laidOut] at measured
  have fits : ∀ drawing ∈ drawings, ∀ number ∈ drawing.numbers, number.toFloat?.isSome = true :=
    fun drawing member =>
      List.all_eq_true.mp (List.all_eq_true.mp (Option.all_some ▸ measured) drawing member)
  obtain ⟨-, written, -⟩ := text_never_becomes_markup document "</title>" "&lt;" laidOut
  obtain ⟨-, page, tokens, -, -, made, readPage, -, title, subtitle⟩ := written fits
  exact ⟨drawings, page, tokens, laidOut, made, readPage, title, subtitle⟩

/-- A distance of four hundred digits makes a canvas whose width is beyond binary64. -/
theorem render_refuses_wide_canvas :
    ¬ ∀ (document : Document) (drawings : List (Drawing Amount)),
      Layout.drawings? document = some drawings →
        ∃ svgs, drawings.mapM Svg.render = .ok svgs := by
  intro all
  let document : Document := { blocks := [⟨.chords, "C"⟩], settings := ⟨.whole (10 ^ 400), 20⟩ }
  have refused : ((Layout.drawings? document).any fun drawings =>
      (drawings.mapM Svg.render).toOption.isNone) = true := by
    decide +kernel
  obtain ⟨drawings, laidOut, refused⟩ := (Option.any_eq_true ..).mp refused
  obtain ⟨svgs, written⟩ := all document drawings laidOut
  rw [written] at refused
  cases refused

end Sheet

end Jianpu
