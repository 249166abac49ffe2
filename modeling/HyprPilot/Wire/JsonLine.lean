import HyprPilot.Wire.JsonValue

/-!
# JSON texts on a line

A compact text has no control characters, so it fits on a line, and the beginning of an object's text
is no text: what is cut off is not taken for something shorter.
-/

namespace HyprPilot
namespace JsonText

/-! ### No control characters -/

def Visible (cs : List Char) : Prop := ∀ c ∈ cs, 32 ≤ c.toNat

theorem Visible.append {as bs : List Char} (left : Visible as) (right : Visible bs) : Visible (as ++ bs) :=
  List.forall_mem_append.mpr ⟨left, right⟩

theorem Visible.cons {c : Char} {cs : List Char} (first : 32 ≤ c.toNat) (rest : Visible cs) :
    Visible (c :: cs) := List.forall_mem_cons.mpr ⟨first, rest⟩

theorem visible_nil : Visible [] := fun _ none => absurd none List.not_mem_nil

theorem visible_of_all {cs : List Char} (all : cs.all (fun c => 32 ≤ c.toNat) = true) : Visible cs := by
  simpa [Visible] using all

theorem visible_escape (c : Char) : Visible (escape c) := by
  unfold escape
  cases short : letters.lookup c with
  | some letter =>
    have all : ∀ pair ∈ letters, 32 ≤ pair.2.toNat := by decide
    obtain ⟨before, after, shape, -⟩ := List.lookup_eq_some_iff.mp short
    have printable := all (c, letter) (by simp [shape])
    exact Visible.cons (by decide) (Visible.cons printable visible_nil)
  | none =>
    dsimp only
    split
    · have digits : ∀ n < 16, 32 ≤ (hexDigit n).toNat := by decide
      have high := digits (c.toNat / 16) (by omega)
      have low := digits (c.toNat % 16) (by omega)
      intro d member
      simp only [List.mem_cons, List.not_mem_nil, or_false] at member
      rcases member with rfl | rfl | rfl | rfl | rfl | rfl
      · decide
      · decide
      · decide
      · decide
      · exact high
      · exact low
    · next printable => exact Visible.cons (by omega) visible_nil

theorem visible_quote (s : String) : Visible (quote s) := by
  have inner : Visible (s.toList.flatMap escape) := by
    intro c inside
    obtain ⟨d, -, member⟩ := List.mem_flatMap.mp inside
    exact visible_escape d c member
  exact Visible.cons (by decide) (inner.append (Visible.cons (by decide) visible_nil))

theorem visible_number {cs : List Char} (all : ∀ c ∈ cs, isNumberChar c = true) : Visible cs := by
  intro c inside
  have mark := all c inside
  simp only [isNumberChar, Bool.or_eq_true, beq_iff_eq] at mark
  rcases mark with ((((digit | rfl) | rfl) | rfl) | rfl) | rfl
  · have zero : '0'.toNat = 48 := rfl
    have := Char.isDigit_iff_toNat.mp digit
    omega
  all_goals decide

theorem visible_writeMore {α : Type} {last : List Char} {write : α → List Char} {items : List α}
    (each : ∀ a ∈ items, Visible (write a)) (stop : Visible last) :
    Visible (writeMore [] last write items) := by
  induction items with
  | nil => exact stop
  | cons a items ih =>
    have rest := ih fun b inside => each b (List.mem_cons_of_mem _ inside)
    exact Visible.cons (by decide) ((each a List.mem_cons_self).append rest)

theorem visible_writeAll {α : Type} {close : Char} {write : α → List Char} {items : List α}
    (each : ∀ a ∈ items, Visible (write a)) (stop : 32 ≤ close.toNat) :
    Visible (writeAll [] [] close write items) := by
  cases items with
  | nil => exact Visible.cons stop visible_nil
  | cons a items =>
    have rest : Visible (writeMore [] [close] write items) := visible_writeMore
      (fun b inside => each b (List.mem_cons_of_mem _ inside)) (Visible.cons stop visible_nil)
    exact (each a List.mem_cons_self).append rest

theorem visible_render {depth : Nat} {v : Json} (fits : Fits IsFloat depth v) (level : Nat) :
    Visible (render compact level v) := by
  induction fits generalizing level with
  | null =>
    rw [render]
    exact visible_of_all rfl
  | bool b => cases b <;> rw [render] <;> exact visible_of_all rfl
  | int range =>
    rw [render]
    exact visible_number (isNumberChar_toString _)
  | float text =>
    rw [render]
    exact visible_number text.2
  | str s =>
    rw [render]
    exact visible_quote s
  | arr _ ih =>
    rw [render, renderItems_true]
    exact Visible.cons (by decide) (visible_writeAll (fun v inside => ih v inside (level + 1)) (by decide))
  | obj _ _ ih =>
    rw [render, renderFields_true]
    apply Visible.cons (by decide)
    apply visible_writeAll _ (by decide)
    intro field inside
    have inner : Visible (':' :: render compact (level + 1) field.2) :=
      Visible.cons (by decide) (ih field inside (level + 1))
    exact (visible_quote field.1).append inner

/-! ### Reading more of a text -/

/-- What was read, and that something was left, does not change when the text goes on. -/
def Extends {α : Type} (item : Reader α) : Prop :=
  ∀ {cs a rest}, item cs = some (a, rest) → rest ≠ [] → ∀ tail, item (cs ++ tail) = some (a, rest ++ tail)

theorem hex4_append {cs rest : List Char} {n : Nat} (read : hex4 cs = some (n, rest)) (tail : List Char) :
    hex4 (cs ++ tail) = some (n, rest ++ tail) := by
  unfold hex4 at read
  split at read
  · next a b c d left =>
    split at read
    · next va vb vc vd =>
      cases read
      simp only [List.cons_append, hex4, va, vb, vc, vd]
    · cases read
  · cases read

theorem lowHalf_append {high : Nat} {cs rest : List Char} {c : Char}
    (read : lowHalf high cs = some (c, rest)) (tail : List Char) :
    lowHalf high (cs ++ tail) = some (c, rest ++ tail) := by
  unfold lowHalf at read
  split at read
  · next left =>
    obtain ⟨⟨low, after⟩, digits, found⟩ := Option.bind_eq_some_iff.mp read
    show (hex4 (left ++ tail)).bind _ = _
    rw [hex4_append digits, Option.bind_some]
    dsimp only at found ⊢
    split at found
    · next pair =>
      obtain ⟨rfl, rfl⟩ := Prod.mk.inj (Option.some.inj found)
      exact if_pos pair
    · cases found
  · cases read

theorem codeUnits_append {cs rest : List Char} {c : Char} (read : codeUnits cs = some (c, rest))
    (tail : List Char) : codeUnits (cs ++ tail) = some (c, rest ++ tail) := by
  obtain ⟨⟨n, left⟩, digits, found⟩ := Option.bind_eq_some_iff.mp read
  rw [codeUnits, hex4_append digits, Option.bind_some]
  dsimp only at found ⊢
  split at found
  · cases found
  · next high =>
    rw [if_neg high]
    split at found
    · next half =>
      rw [if_pos half]
      exact lowHalf_append found tail
    · next single =>
      cases found
      rw [if_neg single]

theorem escaped_append {cs rest : List Char} {c : Char} (read : escaped cs = some (c, rest))
    (tail : List Char) : escaped (cs ++ tail) = some (c, rest ++ tail) := by
  cases cs with
  | nil => cases read
  | cons letter left =>
    rw [List.cons_append, escaped]
    rw [escaped] at read
    split at read
    · next unicode =>
      rw [if_pos unicode]
      exact codeUnits_append read tail
    · next plain =>
      rw [if_neg plain]
      obtain ⟨d, found, same⟩ := Option.map_eq_some_iff.mp read
      cases same
      rw [found]
      rfl

theorem stringChar_append {cs rest : List Char} {c : Option Char} (read : stringChar cs = some (c, rest))
    (tail : List Char) : stringChar (cs ++ tail) = some (c, rest ++ tail) := by
  unfold stringChar at read
  split at read
  · cases read
    rfl
  · next left =>
    obtain ⟨⟨d, after⟩, found, same⟩ := Option.map_eq_some_iff.mp read
    cases same
    rw [List.cons_append, stringChar, escaped_append found]
    rfl
  · next d left quoteless slashless =>
    split at read
    · cases read
    · next printable =>
      cases read
      rw [List.cons_append, stringChar.eq_def]
      split <;> simp_all
  · cases read

theorem stringChars_append {fuel : Nat} {cs s rest : List Char}
    (read : stringChars fuel cs = some (s, rest)) (tail : List Char) {more : Nat} (le : fuel ≤ more) :
    stringChars more (cs ++ tail) = some (s, rest ++ tail) := by
  induction fuel generalizing cs s more with
  | zero => cases read
  | succ fuel ih =>
    obtain ⟨more, rfl⟩ := Nat.exists_eq_add_of_le' (Nat.le_of_add_left_le le)
    rw [stringChars] at read ⊢
    cases first : stringChar cs with
    | none =>
      rw [first] at read
      cases read
    | some step =>
      obtain ⟨c, left⟩ := step
      rw [first] at read
      rw [stringChar_append first]
      cases c with
      | none =>
        cases read
        rfl
      | some c =>
        obtain ⟨⟨inner, after⟩, found, same⟩ := Option.map_eq_some_iff.mp read
        cases same
        dsimp only
        rw [ih found (by omega)]
        rfl

theorem stringBody_append {cs rest : List Char} {s : String} (read : stringBody cs = some (s, rest))
    (tail : List Char) : stringBody (cs ++ tail) = some (s, rest ++ tail) := by
  obtain ⟨⟨inner, after⟩, found, same⟩ := Option.map_eq_some_iff.mp read
  cases same
  have longer : cs.length + 1 ≤ (cs ++ tail).length + 1 := by
    rw [List.length_append]
    omega
  rw [stringBody, stringChars_append found tail longer]
  rfl

theorem number_append_tail {cs rest : List Char} {v : Json} (read : number cs = some (v, rest))
    (left : rest ≠ []) (tail : List Char) : number (cs ++ tail) = some (v, rest ++ tail) := by
  obtain ⟨n, lexeme, same⟩ := Option.map_eq_some_iff.mp read
  cases same
  have ends : Ends (cs.dropWhile isNumberChar ++ tail) := by
    cases after : cs.dropWhile isNumberChar with
    | nil => exact absurd after left
    | cons c more =>
      apply ends_cons
      have := List.head?_dropWhile_not isNumberChar cs
      rw [after] at this
      simpa using this
  have whole := number_append lexeme (fun c inside => List.mem_takeWhile_imp inside) ends
  rwa [← List.append_assoc, List.takeWhile_append_dropWhile] at whole

theorem word_append_tail {α : Type} {text cs rest : List Char} {a b : α}
    (read : word text a cs = some (b, rest)) (tail : List Char) :
    word text a (cs ++ tail) = some (b, rest ++ tail) := by
  obtain ⟨left, found, same⟩ := Option.map_eq_some_iff.mp read
  cases same
  rw [← List.isPrefixOf?_eq_some_iff_append_eq.mp found, List.append_assoc, word_append]

theorem visible_of_skip {c : Char} {cs rest : List Char} (start : skip cs = c :: rest) :
    isSpace c = false := by
  have := List.head?_dropWhile_not isSpace cs
  rw [← skip, start] at this
  simpa using this

theorem skip_append_of {c : Char} {cs rest : List Char} (start : skip cs = c :: rest) (tail : List Char) :
    skip (cs ++ tail) = c :: (rest ++ tail) := by
  have parts : cs = cs.takeWhile isSpace ++ (c :: rest) := by
    rw [← start, skip, List.takeWhile_append_dropWhile]
  rw [parts, List.append_assoc, skip_append (fun c inside => List.mem_takeWhile_imp inside),
    List.cons_append, skip_cons (visible_of_skip start)]

theorem scalar_extends : Extends scalar := by
  intro cs v rest read left tail
  rw [scalar.eq_def] at read
  split at read
  · exact word_append_tail read tail
  · exact word_append_tail read tail
  · exact word_append_tail read tail
  · next after =>
    obtain ⟨⟨s, more⟩, found, same⟩ := Option.map_eq_some_iff.mp read
    cases same
    show (stringBody (after ++ tail)).map _ = _
    rw [stringBody_append found]
    rfl
  · next n t f quote =>
    have longer := number_append_tail read left tail
    cases cs with
    | nil => cases read
    | cons c cs =>
      rw [List.cons_append] at longer ⊢
      rw [scalar_eq_number _ _, longer]
      simp only [wordMarks, List.mem_cons, List.not_mem_nil, or_false, not_or]
      refine ⟨?_, ?_, ?_, ?_⟩
      · rintro rfl
        exact n _ rfl
      · rintro rfl
        exact t _ rfl
      · rintro rfl
        exact f _ rfl
      · rintro rfl
        exact quote _ rfl

section Containers

variable {α : Type} {item : Reader α} {close : Char}

theorem more_append (extends_ : Extends item) {fuel : Nat} {cs rest : List Char} {items : List α}
    (read : more item close fuel cs = some (items, rest)) (tail : List Char) {longer : Nat}
    (le : fuel ≤ longer) : more item close longer (cs ++ tail) = some (items, rest ++ tail) := by
  induction fuel generalizing cs items longer with
  | zero => cases read
  | succ fuel ih =>
    obtain ⟨longer, rfl⟩ := Nat.exists_eq_add_of_le' (Nat.le_of_add_left_le le)
    rw [more] at read ⊢
    cases start : skip cs with
    | nil =>
      rw [start] at read
      cases read
    | cons c left =>
      rw [start] at read
      rw [skip_append_of start]
      dsimp only at read ⊢
      split at read
      · next last =>
        cases read
        rw [if_pos last]
      · next inner =>
        rw [if_neg inner]
        split at read
        · next comma =>
          rw [if_pos comma]
          cases first : item left with
          | none =>
            rw [first] at read
            cases read
          | some step =>
            obtain ⟨a, after⟩ := step
            rw [first] at read
            obtain ⟨⟨others, end_⟩, found, same⟩ := Option.map_eq_some_iff.mp read
            cases same
            have nonempty : after ≠ [] := by
              rintro rfl
              cases fuel <;> cases found
            rw [extends_ first nonempty]
            dsimp only
            rw [ih found (by omega)]
            rfl
        · cases read

theorem container_append (extends_ : Extends item) {cs rest : List Char} {items : List α}
    (read : container item close cs = some (items, rest)) (tail : List Char) :
    container item close (cs ++ tail) = some (items, rest ++ tail) := by
  rw [container] at read ⊢
  cases start : skip cs with
  | nil =>
    rw [start] at read
    cases read
  | cons c left =>
    rw [start] at read
    rw [skip_append_of start]
    dsimp only at read ⊢
    split at read
    · next last =>
      cases read
      rw [if_pos last]
    · next inner =>
      rw [if_neg inner]
      cases first : item (c :: left) with
      | none =>
        rw [first] at read
        cases read
      | some step =>
        obtain ⟨a, after⟩ := step
        rw [first] at read
        obtain ⟨⟨others, end_⟩, found, same⟩ := Option.map_eq_some_iff.mp read
        cases same
        have nonempty : after ≠ [] := by
          rintro rfl
          cases found
        have longer : after.length + 1 ≤ (after ++ tail).length + 1 := by
          rw [List.length_append]
          omega
        have whole := extends_ first nonempty tail
        rw [List.cons_append] at whole
        rw [whole]
        dsimp only
        rw [more_append extends_ found tail longer]
        rfl

theorem afterColon_append (extends_ : Extends item) {cs rest : List Char} {a : α}
    (read : afterColon item cs = some (a, rest)) (left : rest ≠ []) (tail : List Char) :
    afterColon item (cs ++ tail) = some (a, rest ++ tail) := by
  unfold afterColon at read
  split at read
  · exact extends_ read left tail
  · cases read

theorem member_extends (extends_ : Extends item) : Extends (member item) := by
  intro cs field rest read left tail
  unfold member at read
  split at read
  · next after start =>
    obtain ⟨⟨key, more⟩, body, inner⟩ := Option.bind_eq_some_iff.mp read
    obtain ⟨⟨a, end_⟩, found, same⟩ := Option.map_eq_some_iff.mp inner
    cases same
    rw [← (member_item item).skip, skip_append_of start, member_quote, stringBody_append body,
      Option.bind_some]
    dsimp only at found ⊢
    cases colon : skip more with
    | nil =>
      rw [colon] at found
      cases found
    | cons d more =>
      rw [colon] at found
      have whole := afterColon_append extends_ found left tail
      rw [List.cons_append] at whole
      rw [skip_append_of colon, whole]
      rfl
  · cases read

end Containers

theorem value_extends (depth : Nat) : Extends (value depth) := by
  induction depth with
  | zero =>
    intro cs v rest read left tail
    rw [value] at read ⊢
    cases start : skip cs with
    | nil =>
      rw [start] at read
      cases read
    | cons c after =>
      rw [start] at read
      rw [skip_append_of start]
      exact scalar_extends read left tail
  | succ depth ih =>
    intro cs v rest read left tail
    rw [value] at read
    split at read
    · next after start =>
      obtain ⟨⟨items, end_⟩, found, same⟩ := Option.map_eq_some_iff.mp read
      cases same
      rw [← value_skip, skip_append_of start, value_array, container_append ih found]
      rfl
    · next after start =>
      obtain ⟨⟨fields, end_⟩, found, same⟩ := Option.map_eq_some_iff.mp read
      cases same
      rw [← value_skip, skip_append_of start, value_object, container_append (member_extends ih) found]
      rfl
    · next square curly =>
      cases start : skip cs with
      | nil =>
        rw [start] at read
        cases read
      | cons c after =>
        rw [start] at read
        have whole := scalar_extends read left tail
        rw [List.cons_append] at whole
        have array : c ≠ '[' := by
          rintro rfl
          exact square _ start
        have object : c ≠ '{' := by
          rintro rfl
          exact curly _ start
        rw [← value_skip, skip_append_of start, value_of_scalar array object (visible_of_skip start),
          whole]

/-- A container's text ends where its last bracket is, whatever follows. -/
theorem value_container_append {depth : Nat} {c : Char} {cs rest : List Char} {v : Json}
    (bracket : c = '{' ∨ c = '[') (read : value depth (c :: cs) = some (v, rest)) (tail : List Char) :
    value depth (c :: (cs ++ tail)) = some (v, rest ++ tail) := by
  cases depth with
  | zero => rcases bracket with rfl | rfl <;> cases read
  | succ depth =>
    rcases bracket with rfl | rfl
    · rw [value_object] at read ⊢
      obtain ⟨⟨fields, end_⟩, found, same⟩ := Option.map_eq_some_iff.mp read
      cases same
      rw [container_append (member_extends (value_extends depth)) found]
      rfl
    · rw [value_array] at read ⊢
      obtain ⟨⟨items, end_⟩, found, same⟩ := Option.map_eq_some_iff.mp read
      cases same
      rw [container_append (value_extends depth) found]
      rfl

def IsContainer : Json → Prop
  | .arr _ | .obj _ => True
  | _ => False

theorem render_container (layout : Layout) (level : Nat) {v : Json} (container : IsContainer v) :
    ∃ c cs, render layout level v = c :: cs ∧ (c = '{' ∨ c = '[') := by
  cases v with
  | arr items => exact ⟨'[', _, by rw [render], .inr rfl⟩
  | obj fields => exact ⟨'{', _, by rw [render], .inl rfl⟩
  | _ => exact container.elim

/-- A beginning of a container's text is a text only when it is all of it. -/
theorem parse_beginning {layout : Layout} (white : layout.White) {v : Json} (container : IsContainer v)
    (fits : Fits IsFloat 127 v) {part : List Char} (begins : part <+: render layout 0 v) {w : Json}
    (accepted : parse (String.ofList part) = some w) : part = render layout 0 v := by
  obtain ⟨tail, whole⟩ := begins
  obtain ⟨c, cs, shape, bracket⟩ := render_container layout 0 container
  have complete := value_render white fits 0 ends_nil
  rw [List.append_nil] at complete
  rw [parse, String.toList_ofList] at accepted
  split at accepted
  · next u rest found =>
    cases part with
    | nil => cases found
    | cons d part =>
      have first : d = c := by
        rw [shape, List.cons_append] at whole
        exact (List.cons.inj whole).1
      subst first
      have longer := value_container_append bracket found tail
      rw [← List.cons_append, whole, complete] at longer
      have nothing := (Prod.mk.inj (Option.some.inj longer)).2
      rw [← whole, (List.append_eq_nil_iff.mp nothing.symm).2, List.append_nil]
  · cases accepted

theorem writeMore_last {α : Type} (blank before : List Char) (close : Char) (write : α → List Char)
    (items : List α) : ∃ front, writeMore blank (before ++ [close]) write items = front ++ [close] := by
  induction items with
  | nil => exact ⟨before, rfl⟩
  | cons a items ih =>
    obtain ⟨front, last⟩ := ih
    refine ⟨',' :: (blank ++ (write a ++ front)), ?_⟩
    rw [writeMore, last]
    simp

theorem render_object_last (layout : Layout) (level : Nat) (fields : List (String × Json)) :
    ∃ front, render layout level (.obj fields) = front ++ ['}'] := by
  rw [render, renderFields_true]
  cases fields with
  | nil => exact ⟨['{'], rfl⟩
  | cons field rest =>
    obtain ⟨front, last⟩ := writeMore_last (layout.item level) (layout.close level) '}'
      (renderField layout (level + 1)) rest
    refine ⟨'{' :: (layout.item level ++ (renderField layout (level + 1) field ++ front)), ?_⟩
    rw [writeAll, last]
    simp

end JsonText
end HyprPilot
