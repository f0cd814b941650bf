import Mathlib.Tactic.SplitIfs
import Supergraph.Text.Json

/-!
This module contains the reading of JSON values from texts, and the proof that it gives back every
value that is laid out.
-/

namespace Supergraph.Text.Json

open Hexadecimal

def isBlank (c : Char) : Bool := c = ' ' || c = '\n' || c = '\r' || c = '\t'

def skip (cs : List Char) : List Char := cs.dropWhile isBlank

def escapes : List (Char × Char) := [
  ('"', '"'), ('\\', '\\'), ('/', '/'), ('b', '\x08'), ('f', '\x0c'), ('n', '\n'), ('r', '\r'),
  ('t', '\t')]

def string? : List Char → Option (List Char × List Char)
  | [] => none
  | '"' :: rest => some ([], rest)
  | '\\' :: 'u' :: a :: b :: c :: d :: rest => do
    let char ← (number? [a, b, c, d]).bind character?
    (string? rest).map fun (text, rest) => (char :: text, rest)
  | '\\' :: c :: rest => do
    let char ← escapes.lookup c
    (string? rest).map fun (text, rest) => (char :: text, rest)
  | c :: rest =>
    if c = '\\' ∨ c.toNat < 32 then none
    else (string? rest).map fun (text, rest) => (c :: text, rest)

def members? {α : Type} (member? : List Char → Option (α × List Char)) (closing : Char) :
    Nat → List Char → Option (List α × List Char)
  | 0, _ => none
  | fuel + 1, cs => do
    let (member, rest) ← member? cs
    match skip rest with
    | [] => none
    | c :: rest =>
      if c = ',' then
        (members? member? closing fuel rest).map fun (members, rest) => (member :: members, rest)
      else if c = closing then some ([member], rest)
      else none

def pair? (value? : List Char → Option (Json × List Char)) (cs : List Char) :
    Option ((String × Json) × List Char) :=
  match skip cs with
  | '"' :: rest => do
    let (key, rest) ← string? rest
    match skip rest with
    | ':' :: rest => (value? rest).map fun (value, rest) => ((String.ofList key, value), rest)
    | _ => none
  | _ => none

def value? : Nat → List Char → Option (Json × List Char)
  | 0, _ => none
  | fuel + 1, cs =>
    match skip cs with
    | '"' :: rest => (string? rest).map fun (text, rest) => (.string (String.ofList text), rest)
    | '[' :: rest =>
      if (skip rest).head? = some ']' then some (.array [], (skip rest).tail)
      else (members? (value? fuel) ']' rest.length rest).map fun (items, rest) =>
        (.array items, rest)
    | '\x7b' :: rest =>
      if (skip rest).head? = some '\x7d' then some (.object [], (skip rest).tail)
      else (members? (pair? (value? fuel)) '\x7d' rest.length rest).map fun (entries, rest) =>
        (.object entries, rest)
    | _ => none

def ofText? (text : String) : Option Json := do
  let (value, rest) ← value? text.toList.length text.toList
  if skip rest = [] then some value else none

theorem skip_newline_append (level : Nat) (cs : List Char) :
    skip ((newline level).toList ++ cs) = skip cs := by
  have hblank : ∀ n, skip (List.replicate n ' ' ++ cs) = skip cs := by
    intro n
    induction n with
    | zero => rfl
    | succ n ih => exact ih
  unfold newline
  simp only [String.toList_append, String.toList_ofList, List.append_assoc]
  exact hblank (2 * level)

theorem digit?_lowerDigit : ∀ d < 16, digit? (lowerDigit d) = some d := by decide

theorem number?_byte {n : Nat} (h : n < 256) :
    number? ('0' :: '0' :: byte lowerDigit n) = some n := by
  have hhigh := digit?_lowerDigit (n / 16) (by omega)
  have hlow := digit?_lowerDigit (n % 16) (by omega)
  have hzero : digit? '0' = some 0 := rfl
  have hsum : 16 * (16 * (16 * (16 * 0 + 0) + 0) + n / 16) + n % 16 = n := by omega
  unfold number? byte
  simp only [List.foldlM_cons, List.foldlM_nil, hzero, hhigh, hlow, Option.map_some,
    Option.bind_eq_bind, Option.bind_some]
  exact congrArg some hsum

theorem string?_plain {c : Char} (hquote : c ≠ '"') (hbackslash : c ≠ '\\')
    (hcontrol : ¬ c.toNat < 32) (rest : List Char)
    : string? (c :: rest) = (string? rest).map fun (text, rest) => (c :: text, rest) := by
  have hplain : ¬ (c = '\\' ∨ c.toNat < 32) := not_or.2 ⟨hbackslash, hcontrol⟩
  rw [string?.eq_def]
  split
  . next h => cases h
  . next h => cases h; exact absurd rfl hquote
  . next h => cases h; exact absurd rfl hbackslash
  . next h => cases h; exact absurd rfl hbackslash
  . next h => cases h; exact if_neg hplain

theorem string?_escape_append (c : Char) (rest : List Char) :
    string? (escape c ++ rest) = (string? rest).map fun (text, rest) => (c :: text, rest) := by
  unfold escape
  split_ifs with hquote hbackslash _ _ _ _ _ hcontrol
  all_goals try subst_vars
  all_goals try rfl
  . have hchar : (number? ('0' :: '0' :: byte lowerDigit c.toNat)).bind character? = some c := by
      rw [number?_byte (by omega), Option.bind_some, character?_toNat]
    change ((number? ('0' :: '0' :: byte lowerDigit c.toNat)).bind character?).bind _ = _
    rw [hchar, Option.bind_some]
    rfl
  -- What is not escaped is neither a quote, a backslash nor a control character.
  . exact string?_plain hquote hbackslash hcontrol rest

theorem string?_escaped_append (cs rest : List Char) :
    string? (cs.flatMap escape ++ '"' :: rest) = some (cs, rest) := by
  induction cs with
  | nil => rfl
  | cons c cs ih =>
    rw [List.flatMap_cons, List.append_assoc, string?_escape_append, ih]
    rfl

theorem toList_quote_append (text : String) (rest : List Char) :
    (quote text).toList ++ rest = '"' :: (text.toList.flatMap escape ++ '"' :: rest) := by
  simp [quote, String.toList_append]

def renderItem (level : Nat) (item : Json) : String := newline level ++ render level item

def renderEntry (level : Nat) (e : String × Json) : String :=
  newline level ++ quote e.1 ++ ": " ++ render level e.2

theorem renderItems_eq (level : Nat) (items : List Json) :
    renderItems level items = ",".intercalate (items.map (renderItem level)) := by
  induction items with
  | nil => rfl
  | cons item items ih =>
    cases items with
    | nil => simp [renderItems, renderItem, String.intercalate_singleton]
    | cons item' items =>
      simp only [List.map_cons, String.intercalate_cons_cons] at ih ⊢
      rw [← ih]
      rfl

theorem renderEntries_eq (level : Nat) (entries : List (String × Json)) :
    renderEntries level entries = ",".intercalate (entries.map (renderEntry level)) := by
  induction entries with
  | nil => rfl
  | cons e entries ih =>
    cases entries with
    | nil => simp [renderEntries, renderEntry, String.intercalate_singleton]
    | cons e' entries =>
      simp only [List.map_cons, String.intercalate_cons_cons] at ih ⊢
      rw [← ih]
      rfl

theorem toList_render_array_append (level : Nat) (item : Json) (items : List Json)
    (rest : List Char)
    : (render level (.array (item :: items))).toList ++ rest
        =
      '[' :: ((",".intercalate ((item :: items).map (renderItem (level + 1)))).toList
        ++ ((newline level).toList ++ ']' :: rest)) := by
  rw [render, renderItems_eq]
  . simp only [String.toList_append, List.append_assoc]
    rfl
  . nofun

theorem toList_render_object_append (level : Nat) (e : String × Json)
    (entries : List (String × Json)) (rest : List Char)
    : (render level (.object (e :: entries))).toList ++ rest
        =
      '\x7b' :: ((",".intercalate ((e :: entries).map (renderEntry (level + 1)))).toList
        ++ ((newline level).toList ++ '\x7d' :: rest)) := by
  rw [render, renderEntries_eq]
  . simp only [String.toList_append, List.append_assoc]
    rfl
  . nofun

section

variable {α : Type} (member? : List Char → Option (α × List Char)) (layout : α → String)

theorem length_le_length_intercalate {x : α} {xs : List α} (hx : x ∈ xs) :
    (layout x).toList.length ≤ (",".intercalate (xs.map layout)).toList.length := by
  induction xs with
  | nil => cases hx
  | cons y xs ih =>
    cases xs with
    | nil =>
      cases List.mem_singleton.1 hx
      simp [String.intercalate_singleton]
    | cons z xs =>
      simp only [List.map_cons, String.intercalate_cons_cons] at ih ⊢
      rw [String.toList_append, String.toList_append, List.length_append, List.length_append]
      cases List.mem_cons.1 hx with
      | inl heq => rw [heq]; omega
      | inr hx => have := ih hx; omega

theorem length_le_length_intercalate_cons (x : α) (xs : List α) :
    xs.length ≤ (",".intercalate ((x :: xs).map layout)).toList.length := by
  induction xs generalizing x with
  | nil => exact Nat.zero_le _
  | cons y xs ih =>
    have hrest := ih y
    simp only [List.map_cons, String.intercalate_cons_cons] at hrest ⊢
    rw [String.toList_append, String.toList_append, List.length_append, List.length_append]
    change xs.length + 1 ≤ _ + 1 + _
    omega

theorem members?_intercalate {closing : Char} (hcomma : closing ≠ ',') (hblank : ¬ isBlank closing)
    (level : Nat) (rest : List Char) {x : α} {xs : List α}
    (hmember : ∀ y ∈ x :: xs, ∀ rest, member? ((layout y).toList ++ rest) = some (y, rest))
    {fuel : Nat} (hfuel : xs.length < fuel)
    : members? member? closing fuel ((",".intercalate ((x :: xs).map layout)).toList
          ++ ((newline level).toList ++ closing :: rest))
        =
      some (x :: xs, rest) := by
  obtain ⟨fuel, rfl⟩ := Nat.exists_eq_succ_of_ne_zero (Nat.ne_zero_of_lt hfuel)
  induction xs generalizing x fuel with
  | nil =>
    have hskip : skip ((newline level).toList ++ closing :: rest) = closing :: rest := by
      rw [skip_newline_append]
      simp [skip, hblank]
    rw [List.map_singleton, String.intercalate_singleton, members?,
      hmember x List.mem_cons_self]
    simp [hskip, hcomma]
  | cons y xs ih =>
    obtain ⟨fuel, rfl⟩ := Nat.exists_eq_succ_of_ne_zero
      (Nat.ne_zero_of_lt (Nat.lt_of_succ_lt_succ hfuel))
    have hrest := ih (fun z hz => hmember z (List.mem_cons_of_mem x hz)) fuel
      (Nat.lt_of_succ_lt_succ hfuel)
    have hskip : ∀ cs, skip (",".toList ++ cs) = ',' :: cs := fun _ => rfl
    simp only [List.map_cons, String.intercalate_cons_cons, String.toList_append,
      List.append_assoc] at hrest ⊢
    rw [members?, hmember x List.mem_cons_self]
    simp only [Option.bind_eq_bind, Option.bind_some, hskip, if_true, hrest, Option.map_some]

theorem exists_members? {closing : Char} (hcomma : closing ≠ ',') (hblank : ¬ isBlank closing)
    (level : Nat) (rest : List Char) {x : α} {xs : List α}
    (hhead : ∀ rest, (skip ((layout x).toList ++ rest)).head? ≠ some closing)
    (hmember : ∀ y ∈ x :: xs, ∀ rest, member? ((layout y).toList ++ rest) = some (y, rest))
    : ∃ cs, (",".intercalate ((x :: xs).map layout)).toList
          ++ ((newline level).toList ++ closing :: rest) = cs
        ∧ (skip cs).head? ≠ some closing
        ∧ members? member? closing cs.length cs = some (x :: xs, rest) := by
  refine ⟨_, rfl, ?_, ?_⟩
  . cases xs with
    | nil =>
      rw [List.map_singleton, String.intercalate_singleton]
      exact hhead _
    | cons y xs =>
      simp only [List.map_cons, String.intercalate_cons_cons, String.toList_append,
        List.append_assoc]
      exact hhead _
  . apply members?_intercalate member? layout hcomma hblank level rest hmember
    have hlength := length_le_length_intercalate_cons layout x xs
    rw [List.length_append, List.length_append, List.length_cons]
    omega

end

theorem value?_newline_append (fuel level : Nat) (cs : List Char) :
    value? fuel ((newline level).toList ++ cs) = value? fuel cs := by
  cases fuel with
  | zero => rfl
  | succ fuel => rw [value?, value?, skip_newline_append]

theorem value?_blank_cons (fuel : Nat) (cs : List Char) :
    value? fuel (' ' :: cs) = value? fuel cs := by
  cases fuel with
  | zero => rfl
  | succ fuel => rfl

theorem pair?_append {value : List Char → Option (Json × List Char)} (level : Nat)
    (e : String × Json) (rest : List Char)
    (h : value (' ' :: ((render level e.2).toList ++ rest)) = some (e.2, rest))
    : pair? value ((renderEntry level e).toList ++ rest) = some (e, rest) := by
  have hskip : ∀ cs, skip ('"' :: cs) = '"' :: cs := fun _ => rfl
  have hcolon : ∀ cs, skip (": ".toList ++ cs) = ':' :: ' ' :: cs := fun _ => rfl
  unfold renderEntry
  simp only [String.toList_append, List.append_assoc]
  rw [pair?, skip_newline_append, toList_quote_append, hskip]
  simp only [string?_escaped_append, Option.bind_eq_bind, Option.bind_some, hcolon, h,
    Option.map_some, String.ofList_toList]

theorem value?_string (fuel : Nat) (cs : List Char) :
    value? (fuel + 1) ('"' :: cs)
      =
    (string? cs).map fun (text, rest) => (.string (String.ofList text), rest) :=
  rfl

theorem value?_array (fuel : Nat) {cs : List Char} (h : (skip cs).head? ≠ some ']') :
    value? (fuel + 1) ('[' :: cs)
      =
    (members? (value? fuel) ']' cs.length cs).map fun (items, rest) => (.array items, rest) :=
  if_neg h

theorem value?_object (fuel : Nat) {cs : List Char} (h : (skip cs).head? ≠ some '\x7d') :
    value? (fuel + 1) ('\x7b' :: cs)
      =
    (members? (pair? (value? fuel)) '\x7d' cs.length cs).map fun (entries, rest) =>
      (.object entries, rest) :=
  if_neg h

theorem head?_skip_render (level : Nat) (j : Json) (rest : List Char) :
    (skip ((render level j).toList ++ rest)).head? ≠ some ']' := by
  cases j with
  | string text =>
    rw [render, toList_quote_append]
    exact (by decide : some '"' ≠ some ']')
  | array items =>
    cases items <;> simp only [render, String.toList_append, List.append_assoc] <;>
      exact (by decide : some '[' ≠ some ']')
  | object entries =>
    cases entries <;> simp only [render, String.toList_append, List.append_assoc] <;>
      exact (by decide : some '\x7b' ≠ some ']')

def ReadsBack (fuel level : Nat) (j : Json) : Prop :=
  ∀ rest, value? fuel ((render level j).toList ++ rest) = some (j, rest)

theorem readsBack_string (fuel level : Nat) (text : String) :
    ReadsBack (fuel + 1) level (.string text) := by
  intro rest
  rw [render, toList_quote_append, value?_string, string?_escaped_append, Option.map_some]
  dsimp only
  rw [String.ofList_toList]

theorem readsBack_array {fuel level : Nat} {items : List Json}
    (hitems : ∀ item ∈ items, ReadsBack fuel (level + 1) item)
    : ReadsBack (fuel + 1) level (.array items) := by
  intro rest
  cases items with
  | nil =>
    rw [render]
    rfl
  | cons item items =>
    have hhead : ∀ rest,
        (skip ((renderItem (level + 1) item).toList ++ rest)).head? ≠ some ']' := by
      intro rest
      rw [renderItem, String.toList_append, List.append_assoc, skip_newline_append]
      exact head?_skip_render _ _ _
    have hmember : ∀ item' ∈ item :: items, ∀ rest,
        value? fuel ((renderItem (level + 1) item').toList ++ rest) = some (item', rest) := by
      intro item' hitem' rest
      rw [renderItem, String.toList_append, List.append_assoc, value?_newline_append]
      exact hitems item' hitem' rest
    obtain ⟨cs, hcs, hskip, hmembers⟩ := exists_members? (value? fuel) (renderItem (level + 1))
      (by decide) (by decide) level rest hhead hmember
    rw [toList_render_array_append, hcs, value?_array _ hskip, hmembers]
    rfl

theorem readsBack_object {fuel level : Nat} {entries : List (String × Json)}
    (hentries : ∀ e ∈ entries, ReadsBack fuel (level + 1) e.2)
    : ReadsBack (fuel + 1) level (.object entries) := by
  intro rest
  cases entries with
  | nil =>
    rw [render]
    rfl
  | cons e entries =>
    have hhead : ∀ rest,
        (skip ((renderEntry (level + 1) e).toList ++ rest)).head? ≠ some '\x7d' := by
      intro rest
      unfold renderEntry
      simp only [String.toList_append, List.append_assoc]
      rw [skip_newline_append, toList_quote_append]
      exact (by decide : some '"' ≠ some '\x7d')
    have hmember : ∀ e' ∈ e :: entries, ∀ rest,
        pair? (value? fuel) ((renderEntry (level + 1) e').toList ++ rest) = some (e', rest) := by
      intro e' he' rest
      apply pair?_append
      rw [value?_blank_cons]
      exact hentries e' he' rest
    obtain ⟨cs, hcs, hskip, hmembers⟩ := exists_members? (pair? (value? fuel))
      (renderEntry (level + 1)) (by decide) (by decide) level rest hhead hmember
    rw [toList_render_object_append, hcs, value?_object _ hskip, hmembers]
    rfl

theorem length_render_lt_array (level : Nat) {items : List Json} {item : Json}
    (h : item ∈ items)
    : (render (level + 1) item).toList.length < (render level (.array items)).toList.length := by
  cases items with
  | nil => cases h
  | cons first items =>
    have hlength := length_le_length_intercalate (renderItem (level + 1)) h
    have harray := congrArg List.length (toList_render_array_append level first items [])
    rw [renderItem, String.toList_append, List.length_append] at hlength
    rw [List.append_nil, List.length_cons, List.length_append] at harray
    omega

theorem length_render_lt_object (level : Nat) {entries : List (String × Json)}
    {e : String × Json} (h : e ∈ entries)
    : (render (level + 1) e.2).toList.length
        <
      (render level (.object entries)).toList.length := by
  cases entries with
  | nil => cases h
  | cons first entries =>
    have hlength := length_le_length_intercalate (renderEntry (level + 1)) h
    have hobject := congrArg List.length (toList_render_object_append level first entries [])
    rw [renderEntry, String.toList_append, List.length_append] at hlength
    rw [List.append_nil, List.length_cons, List.length_append] at hobject
    omega

theorem readsBack {fuel level : Nat} {j : Json} (h : (render level j).toList.length < fuel) :
    ReadsBack fuel level j := by
  -- A part has a shorter layout than the whole, so the fuel lasts.
  induction fuel generalizing level j with
  | zero => exact absurd h (Nat.not_lt_zero _)
  | succ fuel ih =>
    cases j with
    | string text => exact readsBack_string fuel level text
    | array items =>
      apply readsBack_array
      intro item hitem
      exact ih (Nat.lt_of_lt_of_le (length_render_lt_array level hitem) (Nat.le_of_lt_succ h))
    | object entries =>
      apply readsBack_object
      intro e he
      exact ih (Nat.lt_of_lt_of_le (length_render_lt_object level he) (Nat.le_of_lt_succ h))

theorem ofText?_render_append (j : Json) : ofText? (render 0 j ++ "\n") = some j := by
  have hread := readsBack (Nat.lt_succ_self (render 0 j).toList.length) ['\n']
  have hlength : (render 0 j ++ "\n").toList.length = (render 0 j).toList.length + 1 := by
    simp [String.toList_append]
  rw [ofText?, hlength, String.toList_append]
  change (value? _ ((render 0 j).toList ++ ['\n'])).bind _ = _
  rw [hread]
  rfl

end Supergraph.Text.Json
