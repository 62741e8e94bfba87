import JsonQuery.Proofs.Decimals

namespace JsonQuery

namespace Lexeme

theorem isSpace_of_read? {c : Char} {text rest : List Char} {l : Lexeme}
    (h : read? (c :: text) = some (l, rest)) : isSpace c = false := by
  cases hs : isSpace c with
  | false => rfl
  | true =>
    rcases isSpace_cases hs with rfl | rfl | rfl | rfl <;> cases h

theorem readAll?_nil : readAll? [] = some [] := by
  rw [readAll?]
  rfl

theorem readAll?_of_read? {text rest : List Char} {l : Lexeme} (h : read? text = some (l, rest)) :
    readAll? text = (readAll? rest).map (l :: ·) := by
  obtain ⟨c, text, rfl⟩ : ∃ c r, text = c :: r :=
    List.exists_cons_of_ne_nil fun e => by
      subst e
      cases h
  have hd : (c :: text).dropWhile isSpace = c :: text := by simp [isSpace_of_read? h]
  rw [readAll?]
  split
  case _ e => cases hd.symm.trans e
  case _ e =>
    cases hd.symm.trans e
    split
    case _ e => cases h.symm.trans e
    case _ e =>
      cases h.symm.trans e
      rfl

end Lexeme

namespace Json

mutual

-- A document as it is read from its own text.
def draft : Json → Draft
  | null   => .null
  | bool b => .bool b
  | num n  => .num n.reading
  | str s  => .str (some s)
  | arr items   => .arr (draftItems items)
  | obj members => .obj (draftMembers members)

def draftItems : List Json → List Draft
  | []        => []
  | x :: rest => x.draft :: draftItems rest

def draftMembers : List (String × Json) → List (Option String × Draft)
  | []             => []
  | (k, x) :: rest => (some k, x.draft) :: draftMembers rest

end

mutual

-- Whether the text of a document can be read: no integer is too large, no object has a key twice, and
-- no more than `room` containers lie inside of each other.
def Printable : Nat → Json → Prop
  | _,    num (.int n) => (Number.int n).ReadsBack
  | room, arr items    => 0 < room ∧ PrintableItems (room - 1) items
  | room, obj members  =>
    0 < room ∧ (Members.keys members).Nodup ∧ PrintableMembers (room - 1) members
  | _,    _            => True

def PrintableItems : Nat → List Json → Prop
  | _,    []        => True
  | room, x :: rest => x.Printable room ∧ PrintableItems room rest

def PrintableMembers : Nat → List (String × Json) → Prop
  | _,    []             => True
  | room, (_, x) :: rest => x.Printable room ∧ PrintableMembers room rest

end

mutual

-- Whether the floats of a document are read from their own texts.
def Precise : Json → Prop
  | num (.float x) => (Number.float x).ReadsBack
  | arr items      => PreciseItems items
  | obj members    => PreciseMembers members
  | _              => True

def PreciseItems : List Json → Prop
  | []        => True
  | x :: rest => x.Precise ∧ PreciseItems rest

def PreciseMembers : List (String × Json) → Prop
  | []             => True
  | (_, x) :: rest => x.Precise ∧ PreciseMembers rest

end

theorem keys_of_membersToJson? {members ms : List (String × Json)}
    (h : Draft.membersToJson? (draftMembers members) = some ms) :
    Members.keys ms = Members.keys members := by
  induction members generalizing ms with
  | nil =>
    cases h
    rfl
  | cons m members ih =>
    obtain ⟨k, x⟩ := m
    simp only [draftMembers, Draft.membersToJson?] at h
    split at h
    case _ hk _ hm =>
      cases h
      cases hk
      exact congrArg (k :: ·) (ih hm)
    case _ => cases h

mutual

-- What is read is the same document if the floats are.
theorem toJson?_draft_iff {room : Nat} :
    (v : Json) → v.Printable room → (v.draft.toJson? = some v ↔ v.Precise)
  | null, _ | bool _, _ | str _, _ => iff_of_true rfl trivial
  | num n, h => by
    have hn : (num n).draft.toJson? = some (num n) ↔ n.ReadsBack := by
      rw [draft, Draft.toJson?, Number.readsBack_iff]
      cases n.reading <;> simp
    rw [hn]
    cases n with
    | int i   => exact iff_of_true h trivial
    | float x => rfl
  | arr items, h => by
    rw [Printable] at h
    rw [Precise, ← toJson?_draftItems_iff items h.2, draft, Draft.toJson?]
    cases Draft.itemsToJson? (draftItems items) <;> simp
  | obj members, h => by
    rw [Printable] at h
    rw [Precise, ← toJson?_draftMembers_iff members h.2.2, draft, Draft.toJson?]
    cases hm : Draft.membersToJson? (draftMembers members) with
    | none => simp
    | some ms =>
      have hk := Members.ofList_of_nodup (keys_of_membersToJson? hm ▸ h.2.1)
      simp [hk]

theorem toJson?_draftItems_iff {room : Nat} : (items : List Json) → PrintableItems room items →
    (Draft.itemsToJson? (draftItems items) = some items ↔ PreciseItems items)
  | [], _ => iff_of_true rfl trivial
  | x :: rest, h => by
    rw [PrintableItems] at h
    rw [PreciseItems, ← toJson?_draft_iff x h.1, ← toJson?_draftItems_iff rest h.2, draftItems,
      Draft.itemsToJson?]
    cases x.draft.toJson? <;> cases Draft.itemsToJson? (draftItems rest) <;> simp

theorem toJson?_draftMembers_iff {room : Nat} :
    (members : List (String × Json)) → PrintableMembers room members →
      (Draft.membersToJson? (draftMembers members) = some members ↔ PreciseMembers members)
  | [], _ => iff_of_true rfl trivial
  | (k, x) :: rest, h => by
    rw [PrintableMembers] at h
    rw [PreciseMembers, ← toJson?_draft_iff x h.1, ← toJson?_draftMembers_iff rest h.2]
    simp only [draftMembers, Draft.membersToJson?]
    cases x.draft.toJson? <;> cases Draft.membersToJson? (draftMembers rest) <;> simp

end

theorem toList_render_items (x : Json) (rest : List Json) : (arr (x :: rest)).render.toList =
    '[' :: (x.render.toList ++ ((writeItems "" rest).toList ++ [']'])) := by
  rw [render, write, write_eq, writeItems_eq]
  simp [render]

theorem toList_writeItems (x : Json) (rest : List Json) : (writeItems "" (x :: rest)).toList =
    ',' :: (x.render.toList ++ (writeItems "" rest).toList) := by
  rw [writeItems, write_eq, writeItems_eq]
  simp [render]

theorem toList_render_members (k : String) (x : Json) (rest : List (String × Json)) :
    (obj ((k, x) :: rest)).render.toList =
      '{' :: ((quoted k).toList ++
        ':' :: (x.render.toList ++ ((writeMembers "" rest).toList ++ ['}']))) := by
  rw [render, write, write_eq, writeMembers_eq]
  simp [render]

theorem toList_writeMembers (k : String) (x : Json) (rest : List (String × Json)) :
    (writeMembers "" ((k, x) :: rest)).toList =
      ',' :: ((quoted k).toList ++ ':' :: (x.render.toList ++ (writeMembers "" rest).toList)) := by
  rw [writeMembers, write_eq, writeMembers_eq]
  simp [render]

-- A value in a container is followed by a comma or by a bracket.
theorem ends_writeItems (items : List Json) (rest : List Char) :
    Numeral.Ends ((writeItems "" items).toList ++ ']' :: rest) := by
  cases items with
  | nil => simp [writeItems, Numeral.Ends]
  | cons x items => simp [toList_writeItems, Numeral.Ends]

theorem ends_writeMembers (members : List (String × Json)) (rest : List Char) :
    Numeral.Ends ((writeMembers "" members).toList ++ '}' :: rest) := by
  cases members with
  | nil => simp [writeMembers, Numeral.Ends]
  | cons m members =>
    obtain ⟨k, x⟩ := m
    simp [toList_writeMembers, Numeral.Ends]

end Json

namespace Draft.State

variable {nesting : Nat} {s s' : State} {stack : List Open} {text rest : List Char}
  {l : Lexeme}

-- Reads the rest of a text.
def read? (nesting : Nat) (s : State) (text : List Char) : Option Draft :=
  (Lexeme.readAll? text).bind (run nesting s)

theorem read?_step (h : Lexeme.read? text = some (l, rest)) (hn : next nesting s l = some s') :
    read? nesting s text = read? nesting s' rest := by
  rw [read?, Lexeme.readAll?_of_read? h]
  cases hr : Lexeme.readAll? rest <;> simp [read?, run, hr, hn]

-- Whether a state puts the next value into the open containers.
def Awaits (nesting : Nat) (stack : List Open) (s : State) : Prop :=
  ∀ l, l ≠ .closeArray → next nesting s l = start nesting stack l

theorem awaits_value : Awaits nesting stack (.value stack) := fun _ _ => rfl

theorem awaits_firstItem : Awaits nesting (.array [] :: stack) (.firstItem stack) := by
  intro l hl
  cases l <;> first | rfl | exact absurd rfl hl

-- A lexeme that starts a value, or is one itself.
theorem read?_start (hs : Awaits nesting stack s) (h : Lexeme.read? text = some (l, rest))
    (hl : start nesting stack l = some s') : read? nesting s text = read? nesting s' rest := by
  have hc : l ≠ .closeArray := by
    rintro rfl
    cases hl
  exact read?_step h ((hs l hc).trans hl)

theorem start_openArray (hn : stack.length < nesting) :
    start nesting stack .openArray = some (.firstItem stack) :=
  if_pos hn

theorem start_openObject (hn : stack.length < nesting) :
    start nesting stack .openObject = some (.firstKey stack) :=
  if_pos hn

-- A key and the colon behind it, in front of the first member or of another one.
theorem read?_key {members : List (Option String × Draft)} {k : String}
    (hs : next nesting s (.str (some k)) = some (.colon members (some k) stack))
    (text : List Char) : read? nesting s ((Json.quoted k).toList ++ ':' :: text) =
      read? nesting (.value (.object members (some k) :: stack)) text :=
  (read?_step (Lexeme.read?_quoted k _) hs).trans (read?_step rfl rfl)

end Draft.State

namespace Json

open Draft Draft.State

variable {nesting : Nat}

mutual

-- The text of a value is read as this value wherever one is expected.
theorem read?_render {s : State} {stack : List Open} {rest : List Char}
    (hs : Awaits nesting stack s) (hr : Numeral.Ends rest) :
    (v : Json) → v.Printable (nesting - stack.length) →
      State.read? nesting s (v.render.toList ++ rest) =
        State.read? nesting (place v.draft stack) rest
  | null, _ => read?_start hs (by rfl) rfl
  | bool true, _ => read?_start hs (by rfl) rfl
  | bool false, _ => read?_start hs (by rfl) rfl
  | num n, _ => by
    have ht : (num n).render.toList = n.text := by simp [render, write]
    rw [ht]
    exact read?_start hs (Lexeme.read?_num_append hr n.read?_text_eq) rfl
  | str t, _ => by
    have ht : (str t).render = quoted t := by simp [render, write]
    rw [ht]
    exact read?_start hs (Lexeme.read?_quoted t rest) rfl
  | arr [], h => by
    rw [Printable] at h
    have hn : stack.length < nesting := Nat.lt_of_sub_pos h.1
    exact (read?_start hs (by rfl) (start_openArray hn)).trans (read?_step (by rfl) rfl)
  | arr (x :: items), h => by
    rw [Printable, PrintableItems] at h
    have hn : stack.length < nesting := Nat.lt_of_sub_pos h.1
    have hx : x.Printable (nesting - (stack.length + 1)) := h.2.1
    rw [toList_render_items]
    calc
      _ = State.read? nesting (.firstItem stack)
            (x.render.toList ++ ((writeItems "" items).toList ++ ']' :: rest)) := by
        simpa using read?_start hs rfl (start_openArray hn)
      _ = State.read? nesting (.afterItem [x.draft] stack)
            ((writeItems "" items).toList ++ ']' :: rest) :=
        read?_render awaits_firstItem (ends_writeItems items rest) x hx
      _ = _ := read?_writeItems hn items h.2.2
  | obj [], h => by
    rw [Printable] at h
    have hn : stack.length < nesting := Nat.lt_of_sub_pos h.1
    exact (read?_start hs (by rfl) (start_openObject hn)).trans (read?_step (by rfl) rfl)
  | obj ((k, x) :: members), h => by
    rw [Printable, PrintableMembers] at h
    have hn : stack.length < nesting := Nat.lt_of_sub_pos h.1
    have hx : x.Printable (nesting - (stack.length + 1)) := h.2.2.1
    rw [toList_render_members]
    calc
      _ = State.read? nesting (.firstKey stack) ((quoted k).toList ++
            ':' :: (x.render.toList ++ ((writeMembers "" members).toList ++ '}' :: rest))) := by
        simpa using read?_start hs rfl (start_openObject hn)
      _ = State.read? nesting (.value (.object [] (some k) :: stack))
            (x.render.toList ++ ((writeMembers "" members).toList ++ '}' :: rest)) :=
        read?_key rfl _
      _ = State.read? nesting (.afterMember [(some k, x.draft)] stack)
            ((writeMembers "" members).toList ++ '}' :: rest) :=
        read?_render awaits_value (ends_writeMembers members rest) x hx
      _ = _ := read?_writeMembers hn members h.2.2.2

theorem read?_writeItems {stack : List Open} {read : List Draft} {rest : List Char}
    (hn : stack.length < nesting) :
    (items : List Json) → PrintableItems (nesting - stack.length - 1) items →
      State.read? nesting (.afterItem read stack) ((writeItems "" items).toList ++ ']' :: rest) =
        State.read? nesting (place (.arr (read.reverse ++ draftItems items)) stack) rest
  | [], _ => by
    rw [draftItems, List.append_nil]
    exact read?_step rfl rfl
  | x :: items, h => by
    rw [PrintableItems] at h
    have hx : x.Printable (nesting - (stack.length + 1)) := h.1
    rw [toList_writeItems]
    calc
      _ = State.read? nesting (.value (.array read :: stack))
            (x.render.toList ++ ((writeItems "" items).toList ++ ']' :: rest)) := by
        simpa using read?_step rfl rfl
      _ = State.read? nesting (.afterItem (x.draft :: read) stack)
            ((writeItems "" items).toList ++ ']' :: rest) :=
        read?_render awaits_value (ends_writeItems items rest) x hx
      _ = _ := by
        rw [read?_writeItems hn items h.2]
        simp [draftItems]

theorem read?_writeMembers {stack : List Open} {read : List (Option String × Draft)}
    {rest : List Char} (hn : stack.length < nesting) :
    (members : List (String × Json)) → PrintableMembers (nesting - stack.length - 1) members →
      State.read? nesting (.afterMember read stack)
          ((writeMembers "" members).toList ++ '}' :: rest) =
        State.read? nesting (place (.obj (read.reverse ++ draftMembers members)) stack) rest
  | [], _ => by
    rw [draftMembers, List.append_nil]
    exact read?_step rfl rfl
  | (k, x) :: members, h => by
    rw [PrintableMembers] at h
    have hx : x.Printable (nesting - (stack.length + 1)) := h.1
    rw [toList_writeMembers]
    calc
      _ = State.read? nesting (.key read stack) ((quoted k).toList ++
            ':' :: (x.render.toList ++ ((writeMembers "" members).toList ++ '}' :: rest))) := by
        simpa using read?_step rfl rfl
      _ = State.read? nesting (.value (.object read (some k) :: stack))
            (x.render.toList ++ ((writeMembers "" members).toList ++ '}' :: rest)) :=
        read?_key rfl _
      _ = State.read? nesting (.afterMember ((some k, x.draft) :: read) stack)
            ((writeMembers "" members).toList ++ '}' :: rest) :=
        read?_render awaits_value (ends_writeMembers members rest) x hx
      _ = _ := by
        rw [read?_writeMembers hn members h.2]
        simp [draftMembers]

end

-- The text of a document can be read, and it is read as this document if the floats are precise.
theorem draft_of_render {v : Json} (h : v.Printable maxNesting) :
    Draft.read? maxNesting v.render.toList = some v.draft := by
  have hn : Numeral.Ends [] := by simp [Numeral.Ends]
  have hv : v.Printable (maxNesting - ([] : List Open).length) := h
  have hr := read?_render awaits_value hn v hv
  have hd : State.read? maxNesting (place v.draft []) [] = some v.draft := by
    rw [State.read?, Lexeme.readAll?_nil]
    rfl
  rw [List.append_nil] at hr
  rw [Draft.read?, ← State.read?, hr, hd]

theorem read?_render_iff {v : Json} (h : v.Printable maxNesting) :
    Json.read? v.render.toList = some v ↔ v.Precise := by
  rw [Json.read?, draft_of_render h]
  exact toJson?_draft_iff v h

end Json

end JsonQuery
