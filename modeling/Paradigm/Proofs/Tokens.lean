/-
Module: Paradigm.Proofs.Tokens
Layer: Proofs
Purpose: How sampling numbers its tokens. Whatever is done in a session, the registry of it is what
  the placeholders made there leave of the empty one, one after the other. So the tokens seen on a
  bank have the slots from 0 on, in the order of their first appearance, and each bank counts for
  itself. A request for more than one relation makes no placeholder and leaves the session alone.
Imports: Paradigm.Proofs.Resolution.Slots, Paradigm.Proofs.Sessions, Mathlib.Data.Finset.Card
Main exports: Session.Operation.made?, Session.registry_perform, remember, tokensSeen,
  Session.tokens_perform, Registry.Numbers, Registry.AgreesOn, Session.sampling_numbers
-/
import Mathlib.Data.Finset.Card
import Paradigm.Proofs.Resolution.Slots
import Paradigm.Proofs.Sessions

namespace Paradigm

/-! ### Placeholders made in a session -/

/-- The placeholder that an operation makes, if it makes one. -/
def Session.Operation.made? : Session.Operation → Option Placeholder
  | .sample bank request => request.draw?.map fun draw =>
      { bank := bank, draw := draw, field := request.field }
  | _ => none

/-- The placeholders that operations make, in order. -/
def Session.made (operations : List Session.Operation) : List Placeholder :=
  operations.filterMap Session.Operation.made?

/-- Nothing but the placeholder that an operation makes is noted in the registry. -/
theorem Session.Operation.registry_run_eq (operation : Session.Operation) (s : Session) :
    (operation.run s).registry = operation.made?.elim s.registry s.registry.note := by
  cases operation with
  | sample bank request =>
      have hmade : made? (.sample bank request) = request.draw?.map fun draw =>
        { bank := bank, draw := draw, field := request.field } := rfl
      rw [hmade, run, sampleFrom]
      cases request.draw? <;> rfl
  | compile e =>
      rw [run, e.session_compile]
      rfl
  | _ => rfl

/-- The registry of a session notes the placeholders made there, in order. -/
theorem Session.registry_perform (operations : List Session.Operation) (s : Session) :
    (s.perform operations).registry = (made operations).foldl Registry.note s.registry := by
  induction operations generalizing s with
  | nil => rfl
  | cons operation rest ih =>
      rw [perform, ih, operation.registry_run_eq, made, made, List.filterMap_cons]
      cases operation.made? <;> rfl

/-! ### Tokens in the order of their first appearance -/

/-- Tokens with one more behind them, unless it is there already. -/
def remember (tokens : List String) (token : String) : List String :=
  if token ∈ tokens then tokens else tokens ++ [token]

theorem mem_remember_iff {tokens : List String} {token other : String} :
    other ∈ remember tokens token ↔ other ∈ tokens ∨ other = token := by
  unfold remember
  split
  · rename_i hknown
    constructor
    · exact .inl
    · rintro (hother | rfl)
      · exact hother
      · exact hknown
  · rw [List.mem_append, List.mem_singleton]

theorem nodup_remember {tokens : List String} (h : tokens.Nodup) (token : String) :
    (remember tokens token).Nodup := by
  unfold remember
  split
  · exact h
  · rename_i hnew
    have hapart : ∀ one ∈ tokens, ∀ other ∈ [token], one ≠ other := by
      rintro one hone other hother rfl
      exact hnew (List.mem_singleton.mp hother ▸ hone)
    exact List.nodup_append.mpr ⟨h, List.nodup_singleton token, hapart⟩

theorem prefix_remember (tokens : List String) (token : String) :
    tokens <+: remember tokens token := by
  unfold remember
  split
  · exact List.prefix_refl _
  · exact List.prefix_append _ _

section Seen

variable (seen : List String)

theorem mem_foldl_remember_iff {token : String} :
    token ∈ seen.foldl remember [] ↔ token ∈ seen := by
  induction seen using List.reverseRecOn with
  | nil => exact Iff.rfl
  | append_singleton seen last ih =>
      rw [List.foldl_concat, mem_remember_iff, ih, List.mem_append, List.mem_singleton]

theorem nodup_foldl_remember : (seen.foldl remember []).Nodup := by
  induction seen using List.reverseRecOn with
  | nil => exact List.nodup_nil
  | append_singleton seen last ih =>
      rw [List.foldl_concat]
      exact nodup_remember ih last

theorem prefix_foldl_remember (tokens : List String) : tokens <+: seen.foldl remember tokens := by
  induction seen generalizing tokens with
  | nil => exact List.prefix_refl _
  | cons token rest ih => exact (prefix_remember tokens token).trans (ih _)

/-- As many tokens are remembered as were seen, each counted once. -/
theorem length_foldl_remember : (seen.foldl remember []).length = seen.toFinset.card := by
  rw [← List.toFinset_card_of_nodup (nodup_foldl_remember seen)]
  congr 1
  ext token
  rw [List.mem_toFinset, List.mem_toFinset, mem_foldl_remember_iff]

end Seen

/-- A token is remembered behind those that were seen before it. -/
theorem idxOf?_foldl_remember {before after : List String} {token : String} (h : token ∉ before) :
    ((before ++ token :: after).foldl remember []).idxOf? token = some before.toFinset.card := by
  have hnew : token ∉ before.foldl remember [] := mt (mem_foldl_remember_iff before).mp h
  obtain ⟨later, hlater⟩ :=
    prefix_foldl_remember after (remember (before.foldl remember []) token)
  rw [List.foldl_append, List.foldl_cons, ← hlater, remember, if_neg hnew, List.append_assoc,
    ← length_foldl_remember, List.idxOf?_eq_some_iff]
  have hlength : (before.foldl remember []).length
      < (before.foldl remember [] ++ ([token] ++ later)).length := by
    simp
  refine ⟨hlength, by simp, ?_⟩
  intro j hj heq
  rw [List.getElem_append_left hj] at heq
  exact hnew (heq ▸ List.getElem_mem hj)

/-! ### Tokens of a session -/

namespace Registry

/-- A placeholder adds its token to those of its bank, if it has one. -/
theorem tokens_note (r : Registry) (p : Placeholder) (bank : String) :
    (r.note p).tokens bank =
      if p.bank = bank then p.token?.elim (r.tokens bank) (remember (r.tokens bank))
      else r.tokens bank := by
  have hreserve : ∀ token, (r.reserve p.bank token).tokens bank =
      if p.bank = bank then remember (r.tokens bank) token else r.tokens bank := by
    intro token
    rw [tokens_reserve]
    by_cases hbank : p.bank = bank
    · subst hbank
      by_cases hknown : token ∈ r.tokens p.bank <;> simp [remember, hknown]
    · have hother : ¬ bank = p.bank := fun heq => hbank heq.symm
      simp [hbank, hother]
  unfold note Placeholder.token?
  cases p.draw with
  | fresh => simp [tokens_addBank]
  | replacing => simp [tokens_addBank]
  | shared token => exact hreserve token
  | unlike token => exact hreserve token

/-- The tokens of a bank after several placeholders. -/
theorem tokens_foldl_note (r : Registry) (placeholders : List Placeholder) (bank : String) :
    (placeholders.foldl note r).tokens bank =
      ((placeholders.filter (·.bank == bank)).filterMap Placeholder.token?).foldl remember
        (r.tokens bank) := by
  induction placeholders generalizing r with
  | nil => rfl
  | cons p rest ih =>
      rw [List.foldl_cons, ih, tokens_note]
      by_cases hbank : p.bank = bank
      · have hkept : (p :: rest).filter (·.bank == bank)
            = p :: rest.filter (·.bank == bank) := List.filter_cons_of_pos (beq_iff_eq.mpr hbank)
        rw [if_pos hbank, hkept, List.filterMap_cons]
        cases p.token? <;> rfl
      · have hleft : (p :: rest).filter (·.bank == bank) = rest.filter (·.bank == bank) :=
          List.filter_cons_of_neg (mt beq_iff_eq.mp hbank)
        rw [if_neg hbank, hleft]

end Registry

/-- The tokens that operations show on a bank, to hold their slots or to avoid them, in order. -/
def Session.tokensSeen (operations : List Session.Operation) (bank : String) : List String :=
  ((made operations).filter (·.bank == bank)).filterMap Placeholder.token?

/-- The tokens of a bank after several operations are those that were there, followed by the others
that were seen. -/
theorem Session.tokens_perform (operations : List Session.Operation) (s : Session)
    (bank : String) : (s.perform operations).registry.tokens bank =
      (tokensSeen operations bank).foldl remember (s.registry.tokens bank) := by
  rw [registry_perform, Registry.tokens_foldl_note, tokensSeen]

/-! ### Slots -/

/-- A registry numbers the tokens seen on a bank in the order of their first appearance. -/
structure Registry.Numbers (r : Registry) (bank : String) (seen : List String) : Prop where
  /-- The slot of a token is the number of tokens that were seen before it. -/
  first : ∀ before token after, seen = before ++ token :: after → token ∉ before →
    r.slotOf bank token = some before.toFinset.card
  /-- No other tokens have slots. -/
  unseen : ∀ token, token ∉ seen → r.slotOf bank token = none
  /-- As many slots are reserved as there are tokens. -/
  count : r.reserved bank = seen.toFinset.card
  /-- The tokens fill the slots from 0 on, one each. -/
  filled : ∀ slot, slot < r.reserved bank ↔ ∃! token, r.slotOf bank token = some slot

/-- Two registries agree on a bank: its tokens have the same slots. -/
structure Registry.AgreesOn (r r' : Registry) (bank : String) : Prop where
  slots : ∀ token, r'.slotOf bank token = r.slotOf bank token
  reserved : r'.reserved bank = r.reserved bank

theorem Registry.agreesOn_of_tokens {r r' : Registry} {bank : String}
    (h : r'.tokens bank = r.tokens bank) : r.AgreesOn r' bank := by
  constructor
  · intro token
    rw [slotOf_eq_idxOf?, h, slotOf_eq_idxOf?]
  · rw [reserved_eq_length, h, reserved_eq_length]

/-- Below the reserved slots there is a token for each one. -/
theorem Registry.lt_reserved_iff {r : Registry} {bank : String} (h : (r.tokens bank).Nodup)
    {slot : Nat} : slot < r.reserved bank ↔ ∃! token, r.slotOf bank token = some slot := by
  constructor
  · intro hslot
    have hlt : slot < (r.tokens bank).length := r.reserved_eq_length bank ▸ hslot
    have hfound : r.slotOf bank (r.tokens bank)[slot] = some slot := by
      rw [slotOf_eq_idxOf?, List.idxOf?_eq_some_iff]
      refine ⟨hlt, rfl, ?_⟩
      intro j hj heq
      exact hj.ne (h.getElem_inj_iff.mp heq)
    refine ⟨(r.tokens bank)[slot], hfound, ?_⟩
    intro other hother
    exact (slotOf_eq_iff hother hfound).mp rfl
  · rintro ⟨token, htoken, _⟩
    exact slotOf_lt htoken

/-- Tokens that are remembered in order are numbered. -/
theorem Registry.numbers_of_tokens {r : Registry} {bank : String} {seen : List String}
    (h : r.tokens bank = seen.foldl remember []) : r.Numbers bank seen := by
  constructor
  · rintro before token after rfl hnew
    rw [slotOf_eq_idxOf?, h, idxOf?_foldl_remember hnew]
  · intro token hunseen
    rw [slotOf_eq_idxOf?, h, List.idxOf?_eq_none_iff, mem_foldl_remember_iff]
    exact hunseen
  · rw [reserved_eq_length, h, length_foldl_remember]
  · intro slot
    exact lt_reserved_iff (h ▸ nodup_foldl_remember seen)

/-! ### Requests -/

/-- How many relations to other placeholders a request asks for. -/
def DrawRequest.relationCount (request : DrawRequest) : Nat :=
  [request.sharing.isSome, request.unlike.isSome, request.replacing].count true

theorem DrawRequest.draw?_eq_none_iff {request : DrawRequest} :
    request.draw? = none ↔ 2 ≤ request.relationCount := by
  unfold draw? relationCount
  cases request.sharing <;> cases request.unlike <;> cases request.replacing <;> simp

/-- Making a bank known puts it among the known banks. -/
theorem Registry.mem_bankNames_addBank (r : Registry) (bank : String) :
    bank ∈ (r.addBank bank).bankNames := by
  unfold addBank bankNames
  split
  · rename_i hknown
    exact List.contains_iff_mem.mp hknown
  · rw [setSlots, Assoc.keys_insert]
    split
    · assumption
    · exact List.mem_append_right _ (List.mem_singleton.mpr rfl)

/-- A request without a token makes a placeholder and its bank known, and reserves nothing. -/
theorem Session.sampleFrom_tokenless (s : Session) (bank : String) (field : Option String)
    (replacing : Bool) : ∃ p s',
      sampleFrom bank { field := field, replacing := replacing } s = .ok p s' ∧
        p.bank = bank ∧ p.draw = (if replacing then .replacing else .fresh) ∧
        bank ∈ s'.registry.bankNames ∧ ∀ other, s.registry.AgreesOn s'.registry other := by
  have hknown : ∀ other, s.registry.AgreesOn (s.registry.addBank bank) other := fun other =>
    Registry.agreesOn_of_tokens (Registry.tokens_addBank s.registry bank other)
  have hmem := s.registry.mem_bankNames_addBank bank
  cases replacing with
  | false => exact ⟨_, _, rfl, rfl, rfl, hmem, hknown⟩
  | true => exact ⟨_, _, rfl, rfl, rfl, hmem, hknown⟩

/-- Placeholders on other banks change nothing on a bank. -/
theorem Session.agreesOn_perform {operations : List Session.Operation} {bank : String}
    (h : ∀ p ∈ made operations, p.bank ≠ bank) (s : Session) :
    s.registry.AgreesOn (s.perform operations).registry bank := by
  have hnone : (made operations).filter (·.bank == bank) = [] := by
    rw [List.filter_eq_nil_iff]
    intro p hp
    exact mt beq_iff_eq.mp (h p hp)
  apply Registry.agreesOn_of_tokens
  rw [tokens_perform, tokensSeen, hnone]
  rfl

/-! ### Sampling -/

/-- The tokens seen on a bank have the slots from 0 on, one each, in the order of their first
appearance in the session; a slot never changes, and neither do the slots of a bank when
placeholders are made on others. Placeholders without a token make their bank known and reserve
nothing. A request for more than one relation is refused and leaves the session as it was. -/
theorem Session.sampling_numbers :
    (∀ seed operations bank,
      ((ofSeed seed).perform operations).registry.Numbers bank (tokensSeen operations bank)) ∧
    (∀ (s : Session) operations bank token slot, s.registry.slotOf bank token = some slot →
      (s.perform operations).registry.slotOf bank token = some slot) ∧
    (∀ (s : Session) operations bank, (∀ p ∈ made operations, p.bank ≠ bank) →
      s.registry.AgreesOn (s.perform operations).registry bank) ∧
    (∀ (s : Session) bank field replacing, ∃ p s',
      sampleFrom bank { field := field, replacing := replacing } s = .ok p s' ∧
        p.bank = bank ∧ p.draw = (if replacing then .replacing else .fresh) ∧
        bank ∈ s'.registry.bankNames ∧ ∀ other, s.registry.AgreesOn s'.registry other) ∧
    ∀ (s : Session) bank request, 2 ≤ request.relationCount → ∃ node cause,
      sampleFrom bank request s = .error (.rule node cause) s ∧
        cause.promise = .invalidCombination := by
  refine ⟨?_, ?_, ?_, sampleFrom_tokenless, ?_⟩
  · intro seed operations bank
    exact Registry.numbers_of_tokens (tokens_perform operations (ofSeed seed) bank)
  · intro s operations bank token slot hslot
    exact (s.grownTo_perform operations).registry.slotOf_eq hslot
  · intro s operations bank hothers
    exact s.agreesOn_perform hothers
  · intro s bank request hcount
    have hnone := DrawRequest.draw?_eq_none_iff.mpr hcount
    refine ⟨s!"sample from `{bank}`", .combinedDraws, ?_, rfl⟩
    rw [sampleFrom, hnone]

/-- Two tokens on the colors, the first of them twice, and a shape without a token. -/
def Session.Operation.colorful : List Session.Operation := [
  .sample "colors" { sharing := some "target" }, .sample "shapes" {},
  .sample "colors" { unlike := some "other" }, .sample "colors" { sharing := some "target" }]

/-- A token seen again keeps its slot, which a further token does not change either. The shapes are
known though nothing of them is reserved, and a request for two relations is refused. -/
theorem Session.sampling_numbers_colorful :
    let s := (ofSeed 0).perform Operation.colorful
    s.registry.Numbers "colors" ["target", "other", "target"] ∧
      s.registry.bankNames = ["colors", "shapes"] ∧ s.registry.reserved "shapes" = 0 ∧
      s.registry.slotOf "colors" "other" = some 1 ∧
      (s.perform [.sample "colors" { sharing := some "third" }]).registry.slotOf "colors" "other"
        = some 1 ∧
      s.registry.AgreesOn (s.perform [.sample "colors" { sharing := some "third" }]).registry
        "shapes" ∧
      ∃ node cause,
        sampleFrom "colors" { sharing := some "target", replacing := true } s
          = .error (.rule node cause) s ∧ cause.promise = .invalidCombination := by
  obtain ⟨hnumbers, hkept, hothers, _, hrefused⟩ := sampling_numbers
  have hother :
      ((ofSeed 0).perform Operation.colorful).registry.slotOf "colors" "other" = some 1 := by
    decide
  refine ⟨hnumbers 0 Operation.colorful "colors", by decide, by decide, hother, ?_, ?_, ?_⟩
  · exact hkept _ _ _ _ _ hother
  · exact hothers _ _ _ (by decide)
  · exact hrefused _ _ _ (by decide)

end Paradigm
