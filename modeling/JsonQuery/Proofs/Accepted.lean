import JsonQuery.Proofs.Rereading

namespace JsonQuery

namespace Numeral

theorem absorb_lt {significand : Nat} {digits : List Char}
    (h : significand < 0x10000000000000000) :
    (absorb significand digits).1 < 0x10000000000000000 := by
  fun_induction absorb significand digits with
  | case1 => exact h
  | case2 _ _ _ _ hn ih => exact ih hn
  | case3 => exact h

theorem scale?_ne_int (neg : Bool) (significand : Nat) (exponent i : Int) :
    scale? neg significand exponent ≠ some (.int i) := by
  intro h
  simp only [scale?] at h
  split at h <;> cases h

-- An integer of a document fits into 64 bits, so it is read from its own text.
theorem readsBack_of_value? {n : Numeral} {i : Int} (h : n.value? = some (.int i)) :
    (Number.int i).ReadsBack := by
  have ha : (absorb 0 n.whole).1 < 0x10000000000000000 := absorb_lt (by decide)
  unfold value? at h
  split at h
  case _ significand left e =>
    rw [e] at ha
    dsimp only at ha h
    split at h
    case _ =>
      split at h
      case isTrue =>
        cases h
        exact Number.readsBack_int (by omega) (by omega)
      case isFalse =>
        split at h
        case isTrue => exact absurd h (scale?_ne_int _ _ _ _)
        case isFalse hs =>
          cases h
          exact Number.readsBack_int (by omega) (by omega)
    case _ => exact absurd h (scale?_ne_int _ _ _ _)

end Numeral

namespace Lexeme

-- What is known of the numbers in an accepted text.
def Sound (l : Lexeme) : Prop := ∀ i, l = .num (some (.int i)) → (Number.int i).ReadsBack

variable {text rest : List Char} {l : Lexeme} {ls : List Lexeme}

theorem sound_of_read? (h : read? text = some (l, rest)) : l.Sound := by
  unfold read? at h
  split at h
  case h_10 =>
    obtain ⟨_, _, e⟩ := Option.map_eq_some_iff.mp h
    cases e
    intro i e
    cases e
  case h_11 | h_12 =>
    obtain ⟨_, _, e⟩ := Option.map_eq_some_iff.mp h
    cases e
    intro i e
    exact Numeral.readsBack_of_value? (Lexeme.num.inj e)
  all_goals
    cases h
    intro i e
    cases e

theorem sound_of_readAll? (h : readAll? text = some ls) : ∀ l ∈ ls, l.Sound := by
  fun_induction readAll? text generalizing ls with
  | case1 =>
    cases h
    simp
  | case2 => cases h
  | case3 text c r hd l rest hr _ ih =>
    obtain ⟨ls, hls, e⟩ := Option.map_eq_some_iff.mp h
    cases e
    exact List.forall_mem_cons.mpr ⟨sound_of_read? hr, ih hls⟩

end Lexeme

namespace Draft

mutual

-- Whether a draft holds no more than `room` containers inside of each other, and integers that are
-- read from their own text.
def Fits : Nat → Draft → Prop
  | _,    num n       => (Lexeme.num n).Sound
  | room, arr items   => 0 < room ∧ FitsItems (room - 1) items
  | room, obj members => 0 < room ∧ FitsMembers (room - 1) members
  | _,    _           => True

def FitsItems : Nat → List Draft → Prop
  | _,    []        => True
  | room, d :: rest => d.Fits room ∧ FitsItems room rest

def FitsMembers : Nat → List (Option String × Draft) → Prop
  | _,    []             => True
  | room, (_, d) :: rest => d.Fits room ∧ FitsMembers room rest

end

variable {room nesting : Nat}

theorem fitsItems_iff {items : List Draft} : FitsItems room items ↔ ∀ d ∈ items, d.Fits room := by
  induction items with
  | nil => simp [FitsItems]
  | cons d rest ih => simp [FitsItems, ih]

theorem fitsMembers_iff {members : List (Option String × Draft)} :
    FitsMembers room members ↔ ∀ m ∈ members, m.2.Fits room := by
  induction members with
  | nil => simp [FitsMembers]
  | cons m rest ih => simp [FitsMembers, ih]

def Open.Fits (room : Nat) : Open → Prop
  | array items      => FitsItems room items
  | object members _ => FitsMembers room members

-- Every open container has room for itself and for what it holds so far.
def StackFits (nesting : Nat) : List Open → Prop
  | []             => True
  | opened :: stack =>
    stack.length < nesting ∧ opened.Fits (nesting - stack.length - 1) ∧ StackFits nesting stack

namespace State

def Fits (nesting : Nat) : State → Prop
  | value stack => StackFits nesting stack
  | firstItem stack | firstKey stack => stack.length < nesting ∧ StackFits nesting stack
  | key members stack | colon members _ stack | afterMember members stack =>
    StackFits nesting (.object members none :: stack)
  | afterItem items stack => StackFits nesting (.array items :: stack)
  | done d => d.Fits nesting

variable {s s' : State} {stack : List Open} {l : Lexeme} {ls : List Lexeme} {d : Draft}

theorem fits_place (hs : StackFits nesting stack) (hd : d.Fits (nesting - stack.length)) :
    (place d stack).Fits nesting := by
  match stack with
  | [] => exact hd
  | .array items :: stack => exact ⟨hs.1, ⟨hd, hs.2.1⟩, hs.2.2⟩
  | .object members k :: stack => exact ⟨hs.1, ⟨hd, hs.2.1⟩, hs.2.2⟩

theorem fits_start (hs : StackFits nesting stack) (hl : l.Sound)
    (h : start nesting stack l = some s') : s'.Fits nesting := by
  unfold start at h
  split at h
  case h_5 | h_6 =>
    split at h
    case isTrue hn =>
      cases h
      exact ⟨hn, hs⟩
    case isFalse => cases h
  case h_7 => cases h
  case h_3 n =>
    cases h
    exact fits_place hs hl
  all_goals
    cases h
    exact fits_place hs trivial

theorem fits_next (hs : s.Fits nesting) (hl : l.Sound) (h : next nesting s l = some s') :
    s'.Fits nesting := by
  unfold next at h
  split at h
  case h_1 => exact fits_start hs hl h
  case h_2 =>
    cases h
    exact fits_place hs.2 ⟨Nat.sub_pos_of_lt hs.1, trivial⟩
  case h_3 _ stack _ =>
    have hs : StackFits nesting (.array [] :: stack) := ⟨hs.1, trivial, hs.2⟩
    exact fits_start hs hl h
  case h_4 =>
    cases h
    exact fits_place hs.2 ⟨Nat.sub_pos_of_lt hs.1, trivial⟩
  case h_5 =>
    cases h
    exact ⟨hs.1, trivial, hs.2⟩
  case h_6 | h_7 | h_8 | h_10 =>
    cases h
    exact hs
  case h_9 =>
    cases h
    have hi := fitsItems_iff.mp hs.2.1
    refine fits_place hs.2.2 ⟨Nat.sub_pos_of_lt hs.1, fitsItems_iff.mpr fun d hd => ?_⟩
    exact hi d (List.mem_reverse.mp hd)
  case h_11 =>
    cases h
    have hm := fitsMembers_iff.mp hs.2.1
    refine fits_place hs.2.2 ⟨Nat.sub_pos_of_lt hs.1, fitsMembers_iff.mpr fun d hd => ?_⟩
    exact hm d (List.mem_reverse.mp hd)
  case h_12 => cases h

theorem fits_run (hs : s.Fits nesting) (hl : ∀ l ∈ ls, l.Sound) (h : run nesting s ls = some d) :
    d.Fits nesting := by
  induction ls generalizing s with
  | nil =>
    cases s <;> cases h
    exact hs
  | cons l ls ih =>
    obtain ⟨hl, hls⟩ := List.forall_mem_cons.mp hl
    obtain ⟨s', hn, h⟩ := Option.bind_eq_some_iff.mp h
    exact ih (fits_next hs hl hn) hls h

end State

theorem fits_of_read? {text : List Char} {d : Draft} (h : read? nesting text = some d) :
    d.Fits nesting := by
  obtain ⟨ls, hls, h⟩ := Option.bind_eq_some_iff.mp h
  have hs : (State.value []).Fits nesting := trivial
  exact State.fits_run hs (Lexeme.sound_of_readAll? hls) h

end Draft

namespace Json

theorem printableMembers_iff {room : Nat} {members : List (String × Json)} :
    PrintableMembers room members ↔ ∀ m ∈ members, m.2.Printable room := by
  induction members with
  | nil => simp [PrintableMembers]
  | cons m rest ih => simp [PrintableMembers, ih]

end Json

namespace Members

variable {α : Type} {entries ms : Members α} {m : String × α}

theorem mem_of_mem_insert {key : String} {value : α} (h : m ∈ ms.insert key value) :
    m ∈ ms ∨ m = (key, value) := by
  induction ms with
  | nil => exact .inr (List.mem_singleton.mp h)
  | cons n rest ih =>
    obtain ⟨k, v⟩ := n
    simp only [insert] at h
    split at h
    case isTrue hk =>
      rcases List.mem_cons.mp h with rfl | h
      case inl => exact .inr (hk ▸ rfl)
      case inr => exact .inl (List.mem_cons_of_mem _ h)
    case isFalse =>
      rcases List.mem_cons.mp h with rfl | h
      case inl => exact .inl List.mem_cons_self
      case inr => exact (ih h).imp_left (List.mem_cons_of_mem _)

theorem mem_of_mem_foldl_insert (h : m ∈ entries.foldl (fun ms (k, v) => insert ms k v) ms) :
    m ∈ ms ∨ m ∈ entries := by
  induction entries generalizing ms with
  | nil => exact .inl h
  | cons e rest ih =>
    rcases ih h with h | h
    case inl =>
      refine (mem_of_mem_insert h).imp_right fun he => ?_
      rw [he]
      exact List.mem_cons_self
    case inr => exact .inr (List.mem_cons_of_mem _ h)

theorem mem_of_mem_ofList (h : m ∈ ofList entries) : m ∈ entries :=
  (mem_of_mem_foldl_insert h).resolve_left List.not_mem_nil

theorem keys_nodup_foldl_insert (h : ms.keys.Nodup) :
    (keys (entries.foldl (fun ms (k, v) => insert ms k v) ms)).Nodup := by
  induction entries generalizing ms with
  | nil => exact h
  | cons e rest ih => exact ih (keys_nodup_insert h)

theorem keys_nodup_ofList : (keys (ofList entries)).Nodup := keys_nodup_foldl_insert List.nodup_nil

end Members

namespace Json

open Draft

mutual

theorem printable_of_toJson? {room : Nat} {v : Json} : (d : Draft) → d.Fits room →
    d.toJson? = some v → v.Printable room
  | .null, _, h | .bool _, _, h => by
    cases h
    trivial
  | .num n, hf, h => by
    obtain ⟨n, e, rfl⟩ := Option.map_eq_some_iff.mp h
    rw [Draft.Fits] at hf
    cases n with
    | int i   => exact hf i (congrArg Lexeme.num e)
    | float x => trivial
  | .str s, _, h => by
    obtain ⟨t, _, rfl⟩ := Option.map_eq_some_iff.mp h
    trivial
  | .arr items, hf, h => by
    obtain ⟨xs, hx, rfl⟩ := Option.map_eq_some_iff.mp h
    rw [Draft.Fits] at hf
    rw [Printable]
    exact ⟨hf.1, printable_of_itemsToJson? items hf.2 hx⟩
  | .obj members, hf, h => by
    obtain ⟨ms, hm, rfl⟩ := Option.map_eq_some_iff.mp h
    rw [Draft.Fits] at hf
    rw [Printable, printableMembers_iff]
    refine ⟨hf.1, Members.keys_nodup_ofList, fun m hmem => ?_⟩
    exact printableMembers_iff.mp (printable_of_membersToJson? members hf.2 hm) m
      (Members.mem_of_mem_ofList hmem)

theorem printable_of_itemsToJson? {room : Nat} {xs : List Json} : (items : List Draft) →
    FitsItems room items → itemsToJson? items = some xs → PrintableItems room xs
  | [], _, h => by
    cases h
    trivial
  | d :: rest, hf, h => by
    simp only [itemsToJson?] at h
    split at h
    case _ v vs hv hvs =>
      cases h
      rw [FitsItems] at hf
      rw [PrintableItems]
      exact ⟨printable_of_toJson? d hf.1 hv, printable_of_itemsToJson? rest hf.2 hvs⟩
    case _ => cases h

theorem printable_of_membersToJson? {room : Nat} {ms : List (String × Json)} :
    (members : List (Option String × Draft)) → FitsMembers room members →
      membersToJson? members = some ms → PrintableMembers room ms
  | [], _, h => by
    cases h
    trivial
  | (k, d) :: rest, hf, h => by
    simp only [membersToJson?] at h
    split at h
    case _ k v vs _ hv hvs =>
      cases h
      rw [FitsMembers] at hf
      rw [PrintableMembers]
      exact ⟨printable_of_toJson? d hf.1 hv, printable_of_membersToJson? rest hf.2 hvs⟩
    case _ => cases h

end

-- Whatever has been read can be written and read again.
theorem printable_of_read? {text : List Char} {v : Json} (h : Json.read? text = some v) :
    v.Printable maxNesting := by
  obtain ⟨d, hd, ht⟩ := Option.bind_eq_some_iff.mp h
  exact printable_of_toJson? d (fits_of_read? hd) ht

end Json

end JsonQuery
