import DeskCalculator.Proofs.Terminal.Screen
/-!
What stands between the bars of the box. A text that the field has room for stands whole at its
right end, with blanks before it; of a longer text the end remains, after a mark that something is
missing. Either way the field has its width, so that the bars stand under the corners of the box.
-/
namespace DeskCalculator.Terminal

/-! ## Texts cut to a width -/

theorem fit_of_le {width : Nat} {t : Text} (fits : t.length ≤ width) : fit width t = t :=
  if_pos fits

theorem exists_fit_of_lt {width : Nat} {t : Text} (positive : 0 < width) (wide : width < t.length) :
    ∃ hidden shown, t = hidden ++ shown ∧ shown.length = width - 1 ∧
      fit width t = '…' :: shown := by
  have few : t.length - (t.length - (width - 1)) = width - 1 := by omega
  refine ⟨_, _, (List.take_append_drop (t.length - (width - 1)) t).symm, ?_,
    if_neg (Nat.not_le.2 wide)⟩
  rw [List.length_drop, few]

theorem length_fit_le {width : Nat} (positive : 0 < width) (t : Text) :
    (fit width t).length ≤ width := by
  rcases Nat.lt_or_ge width t.length with wide | fits
  · obtain ⟨hidden, shown, _, length, cut⟩ := exists_fit_of_lt positive wide
    rw [cut, List.length_cons, length]
    omega
  · rwa [fit_of_le fits]

/-! ## The field -/

theorem length_field (t : Text) : (field t).length = boxWidth := by
  rw [field, Text.length_padLeft]
  exact Nat.max_eq_left (length_fit_le (by decide) t)

theorem field_of_le {t : Text} (fits : t.length ≤ boxWidth) :
    field t = List.replicate (boxWidth - t.length) ' ' ++ t := by
  rw [field, fit_of_le fits, Text.padLeft]

theorem exists_field_of_lt {t : Text} (wide : boxWidth < t.length) :
    ∃ hidden shown, t = hidden ++ shown ∧ shown.length = boxWidth - 1 ∧ field t = '…' :: shown := by
  obtain ⟨hidden, shown, split, length, cut⟩ := exists_fit_of_lt (by decide) wide
  refine ⟨hidden, shown, split, length, ?_⟩
  rw [field, cut, Text.padLeft, List.length_cons, length]
  rfl

/-! ## The box -/

theorem length_border : border.length = boxWidth + 2 := List.length_replicate

theorem length_borderLine (left right : Char) :
    (left :: border ++ [right]).length = boxWidth + 4 := by
  rw [List.length_append, List.length_cons, length_border]
  rfl

variable {σ ε : Type} [Sink σ ε]

def Screen.drawEvents (s : Screen σ) (t : Text) : List (Event ε) := (s.watched.draw t).1.sink.events

theorem Screen.isDrawing_draw (s : Screen σ) (t : Text) :
    IsDrawing (frame s.errorMarker t) (s.drawEvents t) (s.draw t).2 :=
  Terminal.isDrawing_draw s.sink _

/-- A drawing of a text writes a box of three lines, each of thirty-two code points, or the
beginning of it if a write fails. Between the first bars stands the field, of twenty-eight code
points whatever the text: the text whole, after blanks only, or its last twenty-seven code points
after a mark. -/
theorem Screen.draw_field (s : Screen σ) (t : Text) :
    ∃ top f bottom legend,
      let colour := if t = s.errorMarker then errorColour else plainColour
      let picture := clearScreen ++ moveTo 1 1 ++ top ++ moveTo 2 1 ++ ['│', ' '] ++ colour ++ f ++
        resetColour ++ [' ', '│'] ++ moveTo 3 1 ++ bottom ++ legend
      (s.drawEvents t).flatMap Event.written <+: picture ∧
        ((∀ event ∈ s.drawEvents t, event.writeFault? = none) →
          (s.drawEvents t).flatMap Event.written = picture) ∧
        top.length = 32 ∧ '│' ∉ top ∧ bottom.length = 32 ∧ f.length = 28 ∧
        (t.length ≤ 28 ∧ f = List.replicate (28 - t.length) ' ' ++ t ∨
          28 < t.length ∧ ∃ hidden shown, t = hidden ++ shown ∧ shown.length = 27 ∧
            f = '…' :: shown) := by
  have drawing := s.isDrawing_draw t
  refine ⟨'┌' :: border ++ ['┐'], field t, '└' :: border ++ ['┘'],
    ((keyLegend.zipIdx 5).flatMap fun entry => legendRow entry.2 entry.1).flatten, ?_⟩
  intro colour picture
  have whole : (frame s.errorMarker t).flatten = picture := by
    simp [frame, box, picture, colour]
  rw [← whole]
  refine ⟨drawing.written_prefix, drawing.written_eq, length_borderLine _ _, by decide,
    length_borderLine _ _, length_field t, ?_⟩
  rcases Nat.lt_or_ge 28 t.length with wide | fits
  · exact .inr ⟨wide, exists_field_of_lt wide⟩
  · exact .inl ⟨fits, field_of_le fits⟩

theorem Screen.draw_field_sum :
    let s := Screen.blank Memory.empty "Error".toList
    let t := "98765432109876+12345678901234".toList
    (∀ event ∈ s.drawEvents t, event.writeFault? = none) ∧ ∃ before after,
      (s.drawEvents t).flatMap Event.written =
        before ++ ['│', ' '] ++ plainColour ++ '…' :: "765432109876+12345678901234".toList ++
          resetColour ++ [' ', '│'] ++ after := by
  intro s t
  have clear : ∀ event ∈ s.drawEvents t, event.writeFault? = none := by decide
  obtain ⟨top, f, bottom, legend, _, written, _, _, _, _, ⟨short, _⟩ | ⟨_, cut⟩⟩ := s.draw_field t
  · exact absurd short (by decide)
  · obtain ⟨hidden, shown, split, length, rfl⟩ := cut
    have two : hidden.length = 2 := by
      have total : t.length = hidden.length + shown.length := by rw [split, List.length_append]
      have long : t.length = 29 := rfl
      omega
    have kept : "765432109876+12345678901234".toList = shown := by
      have rest : t.drop 2 = shown := by rw [split, List.drop_left' two]
      exact rest
    refine ⟨clear, clearScreen ++ moveTo 1 1 ++ top ++ moveTo 2 1,
      moveTo 3 1 ++ bottom ++ legend, ?_⟩
    rw [written clear, kept, if_neg (by decide)]
    simp only [List.append_assoc]

end DeskCalculator.Terminal
