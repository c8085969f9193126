/-
Module: Paradigm.Proofs.Layout
Layer: Proofs
Purpose: What a text with line breaks tells of its value. Values that are the same but for the order
  in which their objects list their members have the same sorted form. They have the same text, or
  the same order of names in every object, only if they are one value.
Imports: Paradigm.Json.Text, Paradigm.Proofs.Schema.Order, Mathlib.Data.List.Forall2
Main exports: ToldApart, Json.toldApart_quoted, Json.Alike, Json.nameOrders, Json.Alike.sorted_eq,
  Json.Alike.toldApart_pretty, Json.Alike.toldApart_nameOrders, Json.Alike.pretty_eq_iff
-/
import Mathlib.Data.List.Forall2
import Paradigm.Json.Text
import Paradigm.Proofs.Schema.Order

namespace Paradigm

/-! ### Codes -/

theorem map_eq_map_iff_forall₂ {α β γ : Type} {f : α → γ} {g : β → γ} {xs : List α}
    {ys : List β} : xs.map f = ys.map g ↔ List.Forall₂ (fun x y => f x = g y) xs ys := by
  rw [← List.forall₂_eq_eq_eq, List.forall₂_map_left_iff, List.forall₂_map_right_iff]

/-- Two elements that their codes tell apart, whatever comes after these. -/
def ToldApart {α γ : Type} (code : α → List γ) (x y : α) : Prop :=
  ∀ after after' : List γ, code x ++ after = code y ++ after' → x = y

namespace ToldApart

variable {α β γ : Type} {code : α → List γ} {x y : α}

theorem refl (code : α → List γ) (x : α) : ToldApart code x x := fun _ _ _ => rfl

theorem prepend (before : List γ) (h : ToldApart code x y) :
    ToldApart (fun z => before ++ code z) x y := by
  intro after after' heq
  rw [List.append_assoc, List.append_assoc] at heq
  exact h after after' (List.append_cancel_left heq)

/-- Pairs are told apart by the codes of their parts, one after the other. The second parts need
only be told apart where the first are the same. -/
theorem pair {first : α → List γ} {second : β → List γ} {a b : β}
    (hfirst : ToldApart first x y) (hsecond : x = y → ToldApart second a b) :
    ToldApart (fun p : α × β => first p.1 ++ second p.2) (x, a) (y, b) := by
  intro after after' heq
  simp only [List.append_assoc] at heq
  obtain rfl : x = y := hfirst _ _ heq
  rw [hsecond rfl _ _ (List.append_cancel_left heq)]

/-- Lists of one length are told apart where elements in the same place are. -/
theorem flatMap {xs ys : List α} (h : List.Forall₂ (ToldApart code) xs ys) :
    ToldApart (fun zs : List α => zs.flatMap code) xs ys := by
  induction h with
  | nil => exact .refl _ _
  | @cons x y xs ys head _ ih =>
      intro after after' heq
      simp only [List.flatMap_cons, List.append_assoc] at heq
      obtain rfl : x = y := head _ _ heq
      rw [ih _ _ (List.append_cancel_left heq)]

end ToldApart

namespace Json

/-! ### Quoted texts -/

/-- The characters that do not stand for themselves inside quotes. -/
def specials : List Char := '"' :: '\\' :: (List.range 32).map Char.ofNat

theorem escaped_of_not_special {c : Char} (h : c ∉ specials) : escaped c = String.singleton c := by
  have hne : ∀ d ∈ specials, (c == d) = false := by
    intro d hd
    rw [beq_eq_false_iff_ne]
    rintro rfl
    exact h hd
  have hlarge : ¬ c.toNat < 32 := by
    intro hsmall
    apply h
    have hmem : Char.ofNat c.toNat ∈ (List.range 32).map Char.ofNat :=
      List.mem_map_of_mem (List.mem_range.mpr hsmall)
    rw [Char.ofNat_toNat] at hmem
    exact List.mem_cons_of_mem _ (List.mem_cons_of_mem _ hmem)
  unfold escaped
  rw [hne _ (by decide), hne _ (by decide), hne _ (by decide), hne _ (by decide),
    hne _ (by decide), hne _ (by decide), hne _ (by decide), if_neg hlarge]
  rfl

/-- Special characters are written with a backslash. -/
theorem head?_escaped_of_special {c : Char} (h : c ∈ specials) :
    (escaped c).toList.head? = some '\\' := by
  have hall : specials.all (fun d => (escaped d).toList.head? == some '\\') = true := by
    decide +kernel
  exact beq_iff_eq.mp (List.all_eq_true.mp hall c h)

/-- No special character is written as the beginning of another. -/
theorem eq_of_escaped_begins {c d : Char} (hc : c ∈ specials) (hd : d ∈ specials)
    (h : (escaped c).toList <+: (escaped d).toList) : c = d := by
  have hall : specials.all (fun c => specials.all fun d =>
      !(escaped c).toList.isPrefixOf (escaped d).toList || c == d) = true := by
    decide +kernel
  have hpair := List.all_eq_true.mp (List.all_eq_true.mp hall c hc) d hd
  rwa [List.isPrefixOf_iff_prefix.mpr h, Bool.not_true, Bool.false_or, beq_iff_eq] at hpair

/-- The written form of a character. -/
def written (c : Char) : List Char := (escaped c).toList

theorem written_of_not_special {c : Char} (h : c ∉ specials) : written c = [c] := by
  rw [written, escaped_of_not_special h, String.toList_singleton]

/-- No character is written with a quote in front. -/
theorem written_append_ne_quote (c : Char) (after after' : List Char) :
    written c ++ after ≠ '"' :: after' := by
  intro heq
  have hhead := congrArg List.head? heq
  rw [List.head?_append] at hhead
  by_cases hspecial : c ∈ specials
  · rw [written, head?_escaped_of_special hspecial] at hhead
    simp at hhead
  · rw [written_of_not_special hspecial] at hhead
    injection hhead with hquote
    exact hspecial (hquote ▸ by decide)

/-- Characters are told apart as they are written. -/
theorem toldApart_written (c d : Char) : ToldApart written c d := by
  intro after after' heq
  have hhead : ∀ e ∈ specials, ∀ f ∉ specials, ∀ rest rest' : List Char,
      written e ++ rest ≠ written f ++ rest' := by
    intro e he f hf rest rest' hsame
    have hslash := congrArg List.head? hsame
    rw [List.head?_append, written, head?_escaped_of_special he, written_of_not_special hf]
      at hslash
    injection hslash with hslash
    exact hf (hslash ▸ by decide)
  by_cases hc : c ∈ specials <;> by_cases hd : d ∈ specials
  · -- One of the two is a beginning of the other.
    have hbegins : written d <+: written c ++ after := heq ▸ List.prefix_append _ _
    rcases List.prefix_or_prefix_of_prefix (List.prefix_append _ _) hbegins with h | h
    · exact eq_of_escaped_begins hc hd h
    · exact (eq_of_escaped_begins hd hc h).symm
  · exact absurd heq (hhead c hc d hd _ _)
  · exact absurd heq.symm (hhead d hd c hc _ _)
  · rw [written_of_not_special hc, written_of_not_special hd] at heq
    exact (List.cons.inj heq).1

theorem toList_quoted (s : String) :
    (quoted s).toList = '"' :: (s.toList.flatMap written ++ ['"']) := by
  have hfold : ∀ (cs : List Char) (text : String),
      (cs.foldl (fun text c => text ++ escaped c) text).toList
        = text.toList ++ cs.flatMap written := by
    intro cs
    induction cs with
    | nil => simp
    | cons c rest ih =>
        intro text
        rw [List.foldl_cons, ih, String.toList_append, List.flatMap_cons, List.append_assoc]
        rfl
  rw [quoted, String.foldl_eq_foldl_toList, String.toList_append, String.toList_append, hfold]
  rfl

/-- Texts are told apart in quotes: the closing quote ends them. -/
theorem toldApart_quoted (s t : String) : ToldApart (fun u => (quoted u).toList) s t := by
  have hwritten : ∀ (cs ds after after' : List Char),
      cs.flatMap written ++ '"' :: after = ds.flatMap written ++ '"' :: after' → cs = ds := by
    intro cs
    induction cs with
    | nil =>
        intro ds after after' heq
        cases ds with
        | nil => rfl
        | cons d others =>
            rw [List.flatMap_cons, List.append_assoc] at heq
            exact absurd heq.symm (written_append_ne_quote d _ _)
    | cons c rest ih =>
        intro ds after after' heq
        cases ds with
        | nil =>
            rw [List.flatMap_cons, List.append_assoc] at heq
            exact absurd heq (written_append_ne_quote c _ _)
        | cons d others =>
            simp only [List.flatMap_cons, List.append_assoc] at heq
            obtain rfl : c = d := toldApart_written c d _ _ heq
            rw [ih others after after' (List.append_cancel_left heq)]
  intro after after' heq
  simp only [toList_quoted, List.cons_append, List.append_assoc, List.nil_append] at heq
  injection heq with _ heq
  exact String.toList_inj.mp (hwritten _ _ after after' heq)

/-! ### Values but for the order of members -/

/-- Values that are the same but for the order in which their objects list their members. Names in
an object are distinct. -/
inductive Alike : Json → Json → Prop where
  | refl (v : Json) : Alike v v
  | arr {xs ys : List Json} (length : xs.length = ys.length)
      (items : ∀ x y, (x, y) ∈ xs.zip ys → Alike x y) : Alike (.arr xs) (.arr ys)
  | obj {ms ns : List (String × Json)} (distinct : (ms.map Prod.fst).Nodup)
      (names : (ms.map Prod.fst).Perm (ns.map Prod.fst))
      (members : ∀ name x y, (name, x) ∈ ms → (name, y) ∈ ns → Alike x y) :
      Alike (.obj ms) (.obj ns)

mutual

/-- The names of the members of every object, object by object in the order of the text. -/
def nameOrders : Json → List (List String)
  | .arr items => nameOrdersItems items
  | .obj members => members.map Prod.fst :: nameOrdersMembers members
  | _ => []

/-- The names within elements. -/
def nameOrdersItems : List Json → List (List String)
  | [] => []
  | item :: rest => item.nameOrders ++ nameOrdersItems rest

/-- The names within members. -/
def nameOrdersMembers : List (String × Json) → List (List String)
  | [] => []
  | (_, value) :: rest => value.nameOrders ++ nameOrdersMembers rest

end

theorem nameOrdersItems_eq (items : List Json) :
    nameOrdersItems items = items.flatMap nameOrders := by
  induction items with
  | nil => rfl
  | cons item rest ih => rw [nameOrdersItems, ih, List.flatMap_cons]

theorem nameOrdersMembers_eq (members : List (String × Json)) :
    nameOrdersMembers members = members.flatMap fun m => m.2.nameOrders := by
  induction members with
  | nil => rfl
  | cons m rest ih => rw [nameOrdersMembers, ih, List.flatMap_cons]

theorem prettyItems_eq (indent depth : Nat) (items : List Json) :
    prettyItems indent depth items = items.map (prettyAt indent depth) := by
  induction items with
  | nil => rfl
  | cons item rest ih => rw [prettyItems, ih, List.map_cons]

theorem prettyMembers_eq (indent depth : Nat) (members : List (String × Json)) :
    prettyMembers indent depth members
      = members.map fun m => quoted m.1 ++ ": " ++ m.2.prettyAt indent depth := by
  induction members with
  | nil => rfl
  | cons m rest ih => rw [prettyMembers, ih, List.map_cons]

/-- The first line between brackets, and the others behind commas. -/
theorem toList_bracketed_cons (indent depth : Nat) (opening closing line : String)
    (lines : List String) :
    (bracketed indent depth opening closing (line :: lines)).toList
      = (opening ++ "\n" ++ margin indent (depth + 1)).toList ++ (line.toList
        ++ (lines.flatMap (fun other => (",\n" ++ margin indent (depth + 1)).toList ++ other.toList)
          ++ ("\n" ++ margin indent depth ++ closing).toList)) := by
  have hlines : ∀ (line : String) (lines : List String),
      (",\n".intercalate
          ((line :: lines).map fun other => margin indent (depth + 1) ++ other)).toList
        = (margin indent (depth + 1)).toList ++ line.toList
          ++ lines.flatMap fun other =>
            (",\n" ++ margin indent (depth + 1)).toList ++ other.toList := by
    intro line lines
    induction lines generalizing line with
    | nil => simp
    | cons next rest ih =>
        rw [List.map_cons, List.map_cons, String.intercalate_cons_cons, ← List.map_cons,
          String.toList_append, ih, List.flatMap_cons]
        simp only [String.toList_append, List.append_assoc]
  rw [bracketed, List.isEmpty_cons, if_neg Bool.false_ne_true]
  simp only [String.toList_append, hlines, List.append_assoc]

/-- Lists of one length are told apart by their lines between brackets where elements in the same
place are told apart by theirs. -/
theorem toldApart_bracketed {α : Type} {line : α → String} {xs ys : List α}
    (h : List.Forall₂ (ToldApart fun x => (line x).toList) xs ys) (indent depth : Nat)
    (opening closing : String) :
    ToldApart (fun zs : List α => (bracketed indent depth opening closing (zs.map line)).toList)
      xs ys := by
  cases h with
  | nil => exact .refl _ _
  | @cons x y xs ys head tail =>
      intro after after' heq
      simp only [List.map_cons, toList_bracketed_cons, List.append_assoc,
        List.flatMap_map] at heq
      have hlines := List.append_cancel_left heq
      obtain rfl : x = y := head _ _ hlines
      have hothers := ToldApart.flatMap (tail.imp fun _ _ hline =>
        hline.prepend (",\n" ++ margin indent (depth + 1)).toList)
      rw [hothers _ _ (List.append_cancel_left hlines)]

namespace Alike

/-- Values that are alike have the same sorted form. -/
theorem sorted_eq {v w : Json} (h : v.Alike w) : v.sorted = w.sorted := by
  induction h with
  | refl v => rfl
  | @arr xs ys length items ih =>
      have hitems : List.Forall₂ (fun x y => x.sorted = y.sorted) xs ys :=
        List.forall₂_iff_zip.mpr ⟨length, ih _ _⟩
      rw [sorted, sorted, sortedItems_eq, sortedItems_eq, map_eq_map_iff_forall₂.mpr hitems]
  | @obj ms ns distinct names members ih =>
      have hdistinct := names.nodup_iff.mp distinct
      apply sorted_obj_congr distinct hdistinct
      intro name
      cases hx : ms.lookup name with
      | some x =>
          have hmem := (lookup_eq_some_iff_mem distinct).mp hx
          obtain ⟨⟨_, y⟩, hy, rfl⟩ := List.mem_map.mp (names.mem_iff.mp (List.mem_map_of_mem hmem))
          rw [(lookup_eq_some_iff_mem hdistinct).mpr hy, Option.map_some, Option.map_some,
            ih _ x y hmem hy]
      | none =>
          cases hy : ns.lookup name with
          | none => rfl
          | some y =>
              have hmem := (lookup_eq_some_iff_mem hdistinct).mp hy
              obtain ⟨⟨_, x⟩, hx', rfl⟩ :=
                List.mem_map.mp (names.mem_iff.mpr (List.mem_map_of_mem hmem))
              rw [(lookup_eq_some_iff_mem distinct).mpr hx'] at hx
              cases hx

/-- Values that are alike are told apart by the order of names in them. -/
theorem toldApart_nameOrders {v w : Json} (h : v.Alike w) : ToldApart nameOrders v w := by
  induction h with
  | refl v => exact .refl _ _
  | @arr xs ys length items ih =>
      intro after after' heq
      rw [nameOrders, nameOrders, nameOrdersItems_eq, nameOrdersItems_eq] at heq
      have hitems : List.Forall₂ (ToldApart nameOrders) xs ys :=
        List.forall₂_iff_zip.mpr ⟨length, ih _ _⟩
      rw [ToldApart.flatMap hitems _ _ heq]
  | @obj ms ns distinct names members ih =>
      intro after after' heq
      rw [nameOrders, nameOrders, nameOrdersMembers_eq, nameOrdersMembers_eq, List.cons_append,
        List.cons_append] at heq
      obtain ⟨hnames, hvalues⟩ := List.cons.inj heq
      -- The names come first, so members in the same place have the same name.
      obtain ⟨length, hnames⟩ := List.forall₂_iff_zip.mp (map_eq_map_iff_forall₂.mp hnames)
      have hmembers : List.Forall₂ (ToldApart fun m : String × Json => m.2.nameOrders) ms ns := by
        refine List.forall₂_iff_zip.mpr ⟨length, ?_⟩
        rintro ⟨name, x⟩ ⟨_, y⟩ hmem
        obtain rfl := hnames hmem
        obtain ⟨hx, hy⟩ := List.of_mem_zip hmem
        intro after after' heq
        rw [ih name x y hx hy after after' heq]
      rw [ToldApart.flatMap hmembers _ _ hvalues]

/-- Values that are alike are told apart by their texts. -/
theorem toldApart_prettyAt {v w : Json} (h : v.Alike w) (indent : Nat) :
    ∀ depth, ToldApart (fun u => (u.prettyAt indent depth).toList) v w := by
  induction h with
  | refl v => exact fun _ => .refl _ _
  | @arr xs ys length items ih =>
      intro depth after after' heq
      simp only [prettyAt, prettyItems_eq] at heq
      have hitems : List.Forall₂
          (ToldApart fun u => (u.prettyAt indent (depth + 1)).toList) xs ys :=
        List.forall₂_iff_zip.mpr ⟨length, fun hmem => ih _ _ hmem _⟩
      rw [toldApart_bracketed hitems indent depth _ _ _ _ heq]
  | @obj ms ns distinct names members ih =>
      intro depth after after' heq
      simp only [prettyAt, prettyMembers_eq] at heq
      have hlength : ms.length = ns.length := by
        simpa only [List.length_map] using names.length_eq
      have hmembers : List.Forall₂ (ToldApart fun m : String × Json =>
          (quoted m.1 ++ ": " ++ m.2.prettyAt indent (depth + 1)).toList) ms ns := by
        refine List.forall₂_iff_zip.mpr ⟨hlength, ?_⟩
        rintro ⟨name, x⟩ ⟨other, y⟩ hmem
        obtain ⟨hx, hy⟩ := List.of_mem_zip hmem
        have hvalue : name = other → ToldApart (fun u : Json =>
            (": ").toList ++ (u.prettyAt indent (depth + 1)).toList) x y := by
          rintro rfl
          exact (ih name x y hx hy (depth + 1)).prepend _
        simp only [String.toList_append, List.append_assoc]
        exact (toldApart_quoted name other).pair hvalue
      rw [toldApart_bracketed hmembers indent depth _ _ _ _ heq]

/-- Values that are alike have the same text exactly where their objects list their members in the
same order. -/
theorem pretty_eq_iff {v w : Json} (h : v.Alike w) (indent : Nat) :
    v.pretty indent = w.pretty indent ↔ v.nameOrders = w.nameOrders := by
  constructor
  · intro heq
    have hsame : v = w := h.toldApart_prettyAt indent 0 [] [] (congrArg (·.toList ++ []) heq)
    rw [hsame]
  · intro heq
    have hsame : v = w := h.toldApart_nameOrders [] [] (by rw [heq])
    rw [hsame]

end Alike

end Json

end Paradigm
