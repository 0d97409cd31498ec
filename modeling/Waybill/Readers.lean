/-
# Readers of values, and the writers they undo

A general library; nothing in it names this repository.

A `Format α` reads values of `α` out of JSON values, or refuses, and writes them.  Its two laws
say that what is written is read back, and that nothing is read that could not have been
written: the values that can be read are exactly the valid ones (`Format.exists_parse_iff`),
and a value survives the way through a text (`Format.read_parse`).

`text`, `string`, `count` are formats of single values; `only`, `nullable`, `items` and `page`
make formats out of others.
-/
import Waybill.JsonParse
import Waybill.NumberTexts
import Waybill.Keyset

/-- A reader with its writer.  What is read may be missing, so `read` takes an option. -/
structure Format (α : Type) where
  read : Option Json → Option α
  write : α → Json
  Valid : α → Prop
  read_write : ∀ a, Valid a → read (some (write a)) = some a
  valid_read : ∀ v a, read v = some a → Valid a

namespace Format

variable {α κ : Type}

/-- A valid value is read from the text of what was written. -/
theorem read_parse (F : Format α) {a : α} (h : F.Valid a) :
    F.read (Json.parse (F.write a).stringify) = some a := by
  rw [Json.parse_stringify]
  exact F.read_write a h

/-- **The values that can be read from a text are the valid ones.** -/
theorem exists_parse_iff (F : Format α) (a : α) :
    (∃ text, F.read (Json.parse text) = some a) ↔ F.Valid a :=
  ⟨fun ⟨_, h⟩ => F.valid_read _ a h, fun h => ⟨(F.write a).stringify, F.read_parse h⟩⟩

/-- A step of a reader that was not refused. -/
theorem bind_of_read {x : Option α} {a : α} (h : x = some a) (f : α → Option κ) :
    (x >>= f) = f a := by
  rw [h]
  rfl

/-! ## Single values -/

/-- Any string. -/
def string : Format JsString where
  read v := v.bind Json.str?
  write := .str
  Valid _ := True
  read_write _ _ := rfl
  valid_read _ _ _ := trivial

/-- A format with a condition. -/
def only (F : Format α) (p : α → Bool) : Format α where
  read v := (F.read v).filter p
  write := F.write
  Valid a := F.Valid a ∧ p a = true
  read_write a h := by rw [F.read_write a h.1, Option.filter_some, if_pos h.2]
  valid_read v a h := by
    obtain ⟨hread, hp⟩ := Option.filter_eq_some_iff.mp h
    exact ⟨F.valid_read v a hread, hp⟩

/-- A string that is not empty. -/
def text : Format JsString := string.only (fun s => !s.isEmpty)

/-- A whole number that is not negative and not larger than `Number.MAX_SAFE_INTEGER`. -/
def count : Format ℕ where
  read v := (v.bind Json.number?).bind (fun x =>
    -- `Number.isSafeInteger` and not negative
    if 0 ≤ x ∧ (⌊x⌋ : ℚ) = x ∧ ⌊x⌋ < 2 ^ 53 then some ⌊x⌋.toNat else none)
  write n := .ofNumber (n : ℤ)
  Valid n := n < 2 ^ 53
  read_write n h := by
    have habs : |(n : ℤ)| < 2 ^ 53 := by
      rw [abs_of_nonneg (Int.natCast_nonneg n)]
      exact_mod_cast h
    rw [Option.bind_some, Json.number?_ofNumber habs, Option.bind_some, Int.floor_intCast]
    have hpos : (0 : ℚ) ≤ ((n : ℤ) : ℚ) := by exact_mod_cast Int.natCast_nonneg n
    have hlt : (n : ℤ) < 2 ^ 53 := by exact_mod_cast h
    exact if_pos ⟨hpos, rfl, hlt⟩
  valid_read v n h := by
    obtain ⟨x, -, hx⟩ := Option.bind_eq_some_iff.mp h
    split_ifs at hx with hc
    obtain rfl := Option.some.inj hx
    have hpos : 0 ≤ ⌊x⌋ := Int.floor_nonneg.mpr hc.1
    omega

/-- A value or `null`, of a format that never writes `null`. -/
def nullable (F : Format α) (hnull : ∀ a, F.write a ≠ .null) : Format (Option α) where
  read v := match v with
    | some .null => some none
    | v => (F.read v).map some
  write a := match a with
    | none => .null
    | some a => F.write a
  Valid a := ∀ x ∈ a, F.Valid x
  read_write a h := by
    cases a with
    | none => rfl
    | some a =>
        have hread := F.read_write a (h a rfl)
        show (match some (F.write a) with
          | some .null => some none
          | v => (F.read v).map some) = _
        split
        · next heq => exact absurd (Option.some.inj heq) (hnull a)
        · rw [hread]
          rfl
  valid_read v a h := by
    split at h
    · obtain rfl := Option.some.inj h
      exact fun _ hx => nomatch hx
    · obtain ⟨x, hread, rfl⟩ := Option.map_eq_some_iff.mp h
      rintro _ ⟨rfl⟩
      exact F.valid_read _ _ hread

/-! ## Lists and pages -/

/-- `values.map(…)` with a reader that may refuse. -/
def readAll (F : Format α) (values : List Json) : Option (List α) :=
  values.mapM (fun v => F.read (some v))

theorem readAll_map (F : Format α) {as : List α} (h : ∀ a ∈ as, F.Valid a) :
    F.readAll (as.map F.write) = some as := by
  induction as with
  | nil => rfl
  | cons a as ih =>
      have hrest : F.readAll (as.map F.write) = some as :=
        ih fun b hb => h b (List.mem_cons_of_mem _ hb)
      unfold readAll at hrest ⊢
      rw [List.map_cons, List.mapM_cons, F.read_write a (h a List.mem_cons_self), hrest]
      rfl

theorem valid_readAll (F : Format α) {values : List Json} {as : List α}
    (h : F.readAll values = some as) : ∀ a ∈ as, F.Valid a := by
  induction values generalizing as with
  | nil =>
      obtain rfl : [] = as := Option.some.inj h
      exact fun _ ha => nomatch ha
  | cons v values ih =>
      unfold readAll at h
      simp only [List.mapM_cons, Option.bind_eq_bind, Option.bind_eq_some_iff,
        Option.pure_def] at h
      obtain ⟨a, ha, bs, hbs, heq⟩ := h
      obtain rfl := Option.some.inj heq
      intro b hb
      rcases List.mem_cons.mp hb with rfl | hb
      · exact F.valid_read _ _ ha
      · exact ih hbs b hb

/-- An array of values of which no two have the same key. -/
def items [DecidableEq κ] (F : Format α) (key : α → κ) : Format (List α) where
  read v := match v with
    | some (.arr vs) => (F.readAll vs).filter (fun as => decide (as.map key).Nodup)
    | _ => none
  write as := .arr (as.map F.write)
  Valid as := (∀ a ∈ as, F.Valid a) ∧ (as.map key).Nodup
  read_write as h := by
    show (F.readAll (as.map F.write)).filter _ = _
    rw [F.readAll_map h.1, Option.filter_some, if_pos (decide_eq_true h.2)]
  valid_read v as h := by
    split at h
    · obtain ⟨hread, hnodup⟩ := Option.filter_eq_some_iff.mp h
      exact ⟨F.valid_readAll hread, of_decide_eq_true hnodup⟩
    · cases h

/-- An object. -/
def object? : Option Json → Option Json
  | some (.obj members) => some (.obj members)
  | _ => none

/-- A page of a listing: its items, and the cursor of the next page. -/
def page {ξ : Type} (I : Format (List α)) (C : Format (Option ξ)) :
    Format (Keyset.Page α ξ) where
  read v := do
    let data ← object? v
    let items ← I.read (data.get? (js "items"))
    let nextCursor ← C.read (data.get? (js "nextCursor"))
    return { items := items, nextCursor := nextCursor }
  write page := .obj [(js "items", I.write page.items), (js "nextCursor", C.write page.nextCursor)]
  Valid page := I.Valid page.items ∧ C.Valid page.nextCursor
  read_write page h := by
    have hitems : (Json.obj [(js "items", I.write page.items),
      (js "nextCursor", C.write page.nextCursor)]).get? (js "items") =
        some (I.write page.items) := rfl
    have hcursor : (Json.obj [(js "items", I.write page.items),
      (js "nextCursor", C.write page.nextCursor)]).get? (js "nextCursor") =
        some (C.write page.nextCursor) := rfl
    rw [object?, Option.bind_eq_bind, Option.bind_some, hitems, hcursor, I.read_write _ h.1,
      C.read_write _ h.2]
    rfl
  valid_read v page h := by
    simp only [Option.bind_eq_bind, Option.bind_eq_some_iff, Option.pure_def] at h
    obtain ⟨data, -, items, hitems, nextCursor, hcursor, heq⟩ := h
    obtain rfl := Option.some.inj heq
    exact ⟨I.valid_read _ _ hitems, C.valid_read _ _ hcursor⟩

end Format
