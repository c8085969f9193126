/-
Module: Paradigm.Proofs.LaterSessions
Layer: Proofs
Purpose: Compilation in a later session. Whatever was done since a tree was compiled, compiling it
  again moves no named sample: tokens keep their slots, and the fresh slots of a bank move behind
  the tokens that the bank has gained. The one thing that may go wrong is that a bank is too small
  for the slots that have moved. The tree must not count on the identifiers that compilation makes
  up, be it by the name of a page or an option or by a guard.
Imports: Paradigm.Proofs.Guards, Paradigm.Proofs.Relabelling.Compilation, Paradigm.Proofs.Renaming,
  Paradigm.Proofs.Sessions, Paradigm.Proofs.SlotAssignment
Main exports: Registry.slotIn, Placeholder.MovedAs, Session.shiftedIn, Session.CarriedTo,
  Session.Overruns, Experiment.compile_later
-/
import Paradigm.Proofs.Guards
import Paradigm.Proofs.Relabelling.Compilation
import Paradigm.Proofs.Renaming
import Paradigm.Proofs.Sessions
import Paradigm.Proofs.SlotAssignment

namespace Paradigm

/-! ### Slots in a later registry -/

/-- Where a slot of one registry is in a later one: a reserved slot stays, and the slots after the
reserved ones come after those that the later registry reserves. -/
def Registry.slotIn (r r' : Registry) (bank : String) (slot : Nat) : Nat :=
  if slot < r.reserved bank then slot else slot + (r'.reserved bank - r.reserved bank)

/-- A slot that does not stay moves by as many slots as the bank has gained. -/
theorem Registry.slotIn_eq_add {r r' : Registry} {bank : String} {slot gained : Nat}
    (hgained : r'.reserved bank = r.reserved bank + gained)
    (hmoved : slot < r.slotIn r' bank slot) : r.slotIn r' bank slot = slot + gained := by
  unfold Registry.slotIn at hmoved ⊢
  split
  · rename_i hreserved
    rw [if_pos hreserved] at hmoved
    exact absurd hmoved (Nat.lt_irrefl slot)
  · rw [hgained, Nat.add_sub_cancel_left]

/-- Slots stay in order. -/
theorem Registry.strictMono_slotIn (r r' : Registry) (bank : String) :
    StrictMono (r.slotIn r' bank) := by
  intro slot slot' hlt
  simp only [Registry.slotIn]
  split <;> split <;> omega

/-- A token keeps its slot. -/
theorem Registry.GrownTo.slotOf_slotIn {r r' : Registry} (h : r.GrownTo r') {bank token : String}
    {slot : Nat} (hslot : r.slotOf bank token = some slot) :
    r'.slotOf bank token = some (r.slotIn r' bank slot) := by
  have hreserved := Registry.slotOf_lt hslot
  simp only [Registry.slotIn, hreserved, if_true]
  exact h.slotOf_eq hslot

/-- The free slots of a bank are behind its tokens. -/
theorem Registry.GrownTo.slotIn_reserved_add {r r' : Registry} (h : r.GrownTo r') (bank : String)
    (count : Nat) : r.slotIn r' bank (r.reserved bank + count) = r'.reserved bank + count := by
  have hgrown := h.reserved_le bank
  simp only [Registry.slotIn]
  rw [if_neg (by omega)]
  omega

/-! ### Samples in a later registry -/

/-- What the sample of a placeholder becomes when the registry grows: that of a fresh placeholder
moves by as many slots as the bank has gained, every other one stays as it is. -/
def Placeholder.MovedAs (r r' : Registry) (p : Placeholder) (s s' : Document.Sample) : Prop :=
  match p.draw with
  | .fresh => ∃ slot gained, r'.reserved p.bank = r.reserved p.bank + gained ∧
      s.slot = some slot ∧ s' = { s with slot := some (slot + gained) }
  | _ => s' = s

/-- Counters for new slots beside those of a later registry: they are apart by as many slots as each
bank has gained. -/
def SlotAllocator.AheadBy (slots : SlotAllocator) (r r' : Registry) (slots' : SlotAllocator) :
    Prop :=
  ∀ bank, slots'.upcoming bank = slots.upcoming bank + (r'.reserved bank - r.reserved bank)

theorem SlotAllocator.AheadBy.of_grown {r r' : Registry} (h : r.GrownTo r') :
    AheadBy (.ofRegistry r) r r' (.ofRegistry r') := by
  intro bank
  rw [upcoming_ofRegistry, upcoming_ofRegistry, Nat.add_sub_cancel' (h.reserved_le bank)]

/-- A placeholder moves both counters on alike. -/
theorem SlotAllocator.AheadBy.takeFrom {r r' : Registry} {slots slots' : SlotAllocator}
    (h : slots.AheadBy r r' slots') (p : Placeholder) :
    (p.takeFrom slots).AheadBy r r' (p.takeFrom slots') := by
  intro bank
  rw [Placeholder.upcoming_takeFrom, Placeholder.upcoming_takeFrom, h bank, Nat.add_right_comm]

theorem Placeholder.movedAs_document {r r' : Registry} (hgrown : r.GrownTo r')
    {slots slots' : SlotAllocator} (hslots : slots.AheadBy r r' slots') {p : Placeholder}
    {slot slot' : Slot} (h : p.slotAmong r slots = some slot)
    (h' : p.slotAmong r' slots' = some slot') :
    p.MovedAs r r' (p.document slot) (p.document slot') := by
  unfold Placeholder.slotAmong at h h'
  unfold Placeholder.MovedAs
  cases hdraw : p.draw with
  | fresh =>
      simp only [hdraw, Option.some.injEq] at h h' ⊢
      subst h h'
      have hreserved := hgrown.reserved_le p.bank
      refine ⟨_, r'.reserved p.bank - r.reserved p.bank, by omega, rfl, ?_⟩
      rw [hslots p.bank]
      rfl
  | shared token =>
      simp only [hdraw, Option.map_eq_some_iff] at h h' ⊢
      obtain ⟨n, hn, rfl⟩ := h
      obtain ⟨n', hn', rfl⟩ := h'
      rw [hgrown.slotOf_eq hn, Option.some.injEq] at hn'
      rw [hn']
  | unlike token =>
      simp only [hdraw, Option.map_eq_some_iff] at h h' ⊢
      obtain ⟨n, hn, rfl⟩ := h
      obtain ⟨n', hn', rfl⟩ := h'
      rw [hgrown.slotOf_eq hn, Option.some.injEq] at hn'
      rw [hn']
  | replacing =>
      simp only [hdraw, Option.some.injEq] at h h' ⊢
      rw [← h, ← h']

/-- Placeholders that are settled with a registry and with a later one have samples that differ in
where fresh slots are. -/
theorem Settles.movedAs {r r' : Registry} (hgrown : r.GrownTo r')
    {slots slots' slots₁ slots₂ : SlotAllocator} (hslots : slots.AheadBy r r' slots')
    {ps : List Placeholder} {ss ss' : List Document.Sample}
    (h : Settles r slots ps ss slots₁) (h' : Settles r' slots' ps ss' slots₂) :
    List.Forall₂ (fun entry s' => entry.1.MovedAs r r' entry.2 s') (ps.zip ss) ss' := by
  induction h generalizing ss' slots' with
  | nil slots =>
      cases h'
      exact .nil
  | @cons p _ _ _ _ _ head _ ih =>
      cases h' with
      | cons head' rest' =>
          rw [List.zip_cons_cons]
          exact .cons (Placeholder.movedAs_document hgrown hslots head head')
            (ih (hslots.takeFrom p) rest')

/-! ### Documents in a later session -/

/-- What is called otherwise in a later session: pages and options that bear a number above the
counter are ahead by as many identifiers as were issued since, and slots are where the later
registry has them. -/
def Session.shiftedIn (session later : Session) (issued : Nat) : Relabelling where
  name
    | .page | .choice => shiftNumbers session.ids.counter.toNat issued
    | .block | .item => fun name => name
  slot := session.registry.slotIn later.registry

/-- A session corresponds to every later one, as long as the counter has room. -/
def Session.GrownTo.correspondence {session later : Session} {issued count : Nat}
    (h : session.GrownTo later) (hissued : later.ids = session.ids.after issued)
    (hroom : session.ids.HasRoom (issued + count)) : Correspondence where
  r := session.shiftedIn later issued
  source := session
  target := later
  count := count
  injective := by
    rintro (_ | _ | _ | _)
    · exact fun _ _ hsame => hsame
    · exact fun _ _ hsame => hsame
    · exact shiftNumbers_injective _ _
    · exact shiftNumbers_injective _ _
  issued := by
    have hshift : Renaming (shiftNumbers session.ids.counter.toNat issued) session.ids later.ids
        count := by
      rw [hissued]
      exact Renaming.shiftNumbers (Nat.le_refl _) hroom
    intro kind hkind i hpos hi
    have hname : (session.shiftedIn later issued).name kind
        = shiftNumbers session.ids.counter.toNat issued := by
      rcases List.mem_pair.mp hkind with rfl | rfl <;> rfl
    rw [hname]
    exact hshift.issued i hpos hi
  increasing := session.registry.strictMono_slotIn later.registry
  tokens := h.registry.slotOf_slotIn
  free := h.registry.slotIn_reserved_add

/-- A tree without numbers above the counter, as far as pages and options are named, is the same in
a later session. -/
theorem Experiment.relabel_shiftedIn {e : Experiment} {session : Session}
    (hnames : ∀ kind ∈ [NodeKind.page, .choice], ∀ n, session.ids.counter.toNat < n →
      (kind, toString n) ∉ e.names) (later : Session) (issued : Nat) :
    e.relabel (session.shiftedIn later issued) = e := by
  apply Experiment.relabel_eq_self
  have hkept : ∀ kind ∈ [NodeKind.page, .choice], ∀ name, (kind, name) ∈ e.names →
      shiftNumbers session.ids.counter.toNat issued name = name := by
    intro kind hkind name hname
    apply shiftNumbers_of_ne
    rintro n hlt rfl
    exact hnames kind hkind n hlt hname
  rintro ⟨kind, name⟩ hname
  refine ⟨?_, fun _ => rfl⟩
  cases kind with
  | block => rfl
  | item => rfl
  | page => exact hkept .page (by simp) name hname
  | choice => exact hkept .choice (by simp) name hname

/-- What the document of a tree becomes in a later session: the identifiers that compilation makes
up are shifted by as many as were issued since, slots are where the later registry has them, and so
the samples have moved as their placeholders say. Nothing else differs. -/
structure Session.CarriedTo (session later : Session) (e : Experiment)
    (document document' : Document.Experiment) : Prop where
  shape : ∃ issued, later.ids = session.ids.after issued ∧
    document' = document.relabel (session.shiftedIn later issued)
  samples : List.Forall₂
    (fun entry s' => entry.1.MovedAs session.registry later.registry entry.2 s')
    (e.placeholders.zip document.samples) document'.samples

/-- A reason to refuse a tree in a later session: a slot that lay in a bank lies past its end, as it
has moved behind the tokens that the bank has gained. -/
def Session.Overruns (session later : Session) (cause : Cause) : Prop :=
  ∃ bank size slot gained,
    later.registry.reserved bank = session.registry.reserved bank + gained ∧
      slot < size ∧ size ≤ slot + gained ∧ cause = .slotPastEnd bank size (slot + gained)

/-- A tree that compiles in a session compiles in every later one to what its document becomes
there, or is refused because a bank is too small. -/
theorem Experiment.compile_of_grown {e : Experiment} {session later : Session}
    {document : Document.Experiment} {issued count : Nat} (hgrown : session.GrownTo later)
    (hissued : later.ids = session.ids.after issued)
    (hcount : (e.compile session).session = session.advance count)
    (hroom : session.ids.HasRoom (issued + count))
    (hnames : ∀ kind ∈ [NodeKind.page, .choice], ∀ n, session.ids.counter.toNat < n →
      (kind, toString n) ∉ e.names)
    (h : (e.compile session).outcome = .ok document) :
    (∃ document', (e.compile later).outcome = .ok document' ∧
        session.CarriedTo later e document document') ∨
      ∃ node cause, (e.compile later).outcome = .error (.rule node cause) ∧
        cause.promise = .bankSize ∧ session.Overruns later cause := by
  have hlater := Experiment.compile_relabel_of_ok (hgrown.correspondence hissued hroom) e h hcount
  have hkept : e.relabel (hgrown.correspondence hissued hroom).r = e :=
    Experiment.relabel_shiftedIn hnames later issued
  rw [hkept] at hlater
  rcases hlater with hok | ⟨failure, herror, node, bank, size, slot, rfl, hin, hpast⟩
  · refine .inl ⟨_, hok, ⟨issued, hissued, rfl⟩, ?_⟩
    obtain ⟨_, _, _, _, hcompiled⟩ := e.compile_ok h
    obtain ⟨_, _, _, _, hcompiled'⟩ := e.compile_ok hok
    exact hcompiled.settles_placeholders.movedAs hgrown.registry (.of_grown hgrown.registry)
      hcompiled'.settles_placeholders
  · refine .inr ⟨node, _, herror, rfl, ?_⟩
    obtain ⟨gained, hgained⟩ := Nat.exists_eq_add_of_le (hgrown.registry.reserved_le bank)
    have hpast : size ≤ session.registry.slotIn later.registry bank slot := hpast
    have hmoved : session.registry.slotIn later.registry bank slot = slot + gained :=
      Registry.slotIn_eq_add hgained (Nat.lt_of_lt_of_le hin hpast)
    rw [hmoved] at hpast
    exact ⟨bank, size, slot, gained, hgained, hin, hpast, congrArg _ hmoved⟩

/-- Growing a session after a compilation moves no named sample. A tree compiles after any further
operations to its document with the identifiers that compilation makes up renamed, and with fresh
slots moved by as many as each bank has reserved since, or it is refused because a bank is too small
for a slot that has moved. No page or option has a number above the counter for its name, no guard
refers to a page or an option by one, and the counter has room for the operations and for compiling
the tree after them. -/
theorem Experiment.compile_later (e : Experiment) (session : Session)
    (operations : List Session.Operation) (document : Document.Experiment) (issued count : Nat)
    (hissued : (session.perform operations).ids = session.ids.after issued)
    (hcount : (e.compile session).session = session.advance count)
    (hroom : session.ids.HasRoom (issued + count))
    (hnames : ∀ kind ∈ [NodeKind.page, .choice], ∀ n, session.ids.counter.toNat < n →
      (kind, toString n) ∉ e.names)
    (h : (e.compile session).outcome = .ok document) :
    (∃ document', (e.compile (session.perform operations)).outcome = .ok document' ∧
        session.CarriedTo (session.perform operations) e document document') ∨
      ∃ node cause, (e.compile (session.perform operations)).outcome = .error (.rule node cause) ∧
        cause.promise = .bankSize ∧ session.Overruns (session.perform operations) cause :=
  Experiment.compile_of_grown (session.grownTo_perform operations) hissued hcount hroom hnames h

/-! ### Worked examples -/

/-- No name in the worked example is a number. -/
theorem Experiment.names_worked (kind : NodeKind) (n : Nat) :
    (kind, toString n) ∉ Experiment.worked.names := by
  have hread : Experiment.worked.names.map (fun name => name.2.toNat?)
      = List.replicate 10 none := by cbv
  intro hname
  exact ne_toString_of_mem hread _ hname n rfl

/-- Another word is named. -/
def Session.Operation.nameWord (token : String) : Session.Operation :=
  .sample "words" { sharing := some token, field := some "word" }

/-- The document of the worked example after another word was named: the fresh word has moved behind
the words that are named, the target has not. -/
def Document.Experiment.workedLater : Document.Experiment :=
  Document.Experiment.worked.relabel
    { slot := fun _ slot => if slot = 0 then 0 else slot + 1 }

/-- The worked example compiles after another word was named, and is refused after a third one was,
as there are three words. -/
theorem Experiment.compile_later_worked :
    (Experiment.worked.compile .worked).session = Session.worked.advance 0 ∧
      Session.worked.ids.HasRoom (1 + 0) ∧ Session.worked.ids.HasRoom (0 + 0) ∧
      (∀ kind ∈ [NodeKind.page, .choice], ∀ n, Session.worked.ids.counter.toNat < n →
        (kind, toString n) ∉ Experiment.worked.names) ∧
      (Experiment.worked.compile .worked).outcome = .ok .worked ∧
      (∃ document', (Experiment.worked.compile
            (Session.worked.perform [.nextId, .nameWord "rival"])).outcome = .ok document' ∧
          Session.worked.CarriedTo (Session.worked.perform [.nextId, .nameWord "rival"]) .worked
            .worked document') ∧
      ∃ node cause, (Experiment.worked.compile
          (Session.worked.perform [.nameWord "rival", .nameWord "friend"])).outcome
            = .error (.rule node cause) ∧ cause.promise = .bankSize ∧
          Session.worked.Overruns
            (Session.worked.perform [.nameWord "rival", .nameWord "friend"]) cause := by
  have hcount : (Experiment.worked.compile .worked).session = Session.worked.advance 0 := by cbv
  have hroom : Session.worked.ids.HasRoom (1 + 0) := by decide
  have hroom' : Session.worked.ids.HasRoom (0 + 0) := by decide
  have hnames : ∀ kind ∈ [NodeKind.page, .choice], ∀ n, Session.worked.ids.counter.toNat < n →
      (kind, toString n) ∉ Experiment.worked.names :=
    fun kind _ n _ => Experiment.names_worked kind n
  have hlater : (Experiment.worked.compile
      (Session.worked.perform [.nextId, .nameWord "rival"])).outcome = .ok .workedLater := by cbv
  have hfull : (Experiment.worked.compile
      (Session.worked.perform [.nameWord "rival", .nameWord "friend"])).outcome
        = .error (.rule Experiment.node (.slotPastEnd "words" 3 3)) := by cbv
  refine ⟨hcount, hroom, hroom', hnames, Experiment.compile_worked, ?_, ?_⟩
  · rcases Experiment.compile_later .worked .worked [.nextId, .nameWord "rival"] .worked 1 0 rfl
      hcount hroom hnames Experiment.compile_worked with hok | ⟨node, cause, herror, _⟩
    · exact hok
    · rw [hlater] at herror
      cases herror
  · rcases Experiment.compile_later .worked .worked [.nameWord "rival", .nameWord "friend"] .worked
      0 0 rfl hcount hroom' hnames Experiment.compile_worked with ⟨document', hok, _⟩ | herror
    · rw [hfull] at hok
      cases hok
    · exact herror

/-- A guard that refers by a number to a page that compilation makes up finds it in a new session
only: once the number is used up, the tree does not compile, for want of that page and not for the
size of a bank. None of its nodes has a number for a name. -/
theorem Experiment.compile_again_foreseeing :
    (∀ identity ∈ Experiment.foreseeing.identities, ∀ n : Nat, identity.2 ≠ toString n) ∧
      (Experiment.foreseeing.compile {}).outcome = .ok .foreseeing ∧
      (Experiment.foreseeing.compile
          (Session.perform {} [.compile .foreseeing])).outcome
        = .error (.rule "bye" (.watchedMissing .page "1")) ∧
      (Cause.watchedMissing .page "1").promise ≠ .bankSize := by
  refine ⟨?_, by cbv, by cbv, by decide⟩
  have hread : Experiment.foreseeing.identities.map (fun identity => identity.2.toNat?)
      = List.replicate 4 none := by cbv
  exact ne_toString_of_mem hread

end Paradigm
