/-
Module: Paradigm.Proofs.BankSafety
Layer: Proofs
Purpose: Every sample of a compiled document can be drawn. Its bank is declared around it, and the
  nearest declaration serves all samples bound to it: no slot past the end, fields where records
  are, one way of drawing, and values enough.
Imports: Paradigm.Proofs.Compilation
Main exports: Document.Experiment.map_sample_sites, Document.Experiment.map_sample_undeclared,
  Document.Site.Served, ServedOrLeaves, Experiment.compile_samples_served
-/
import Paradigm.Proofs.Compilation

namespace Paradigm

namespace Document

/-! ### Sites -/

mutual

theorem Block.map_sample_sites : ∀ (outer : List Scope) (block : Block),
    (block.sites outer).map (·.sample) = block.samples
  | outer, ⟨id, pages, items, groups, blocks, _, _, _, _, _, _, _, _⟩ => by
      simp only [Block.sites, Block.samples, List.map_append, List.map_map,
        Block.map_sample_sitesOption]
      congr 1
      exact List.map_id' _

theorem Block.map_sample_sitesOption : ∀ (outer : List Scope) (blocks : Option (List Block)),
    (Block.sitesOption outer blocks).map (·.sample) = Block.samplesOption blocks
  | _, none => rfl
  | outer, some blocks => by
      rw [Block.sitesOption, Block.samplesOption, Block.map_sample_sitesList]

theorem Block.map_sample_sitesList : ∀ (outer : List Scope) (blocks : List Block),
    (Block.sitesList outer blocks).map (·.sample) = Block.samplesList blocks
  | _, [] => rfl
  | outer, block :: rest => by
      rw [Block.sitesList, Block.samplesList, List.map_append, Block.map_sample_sites,
        Block.map_sample_sitesList]

end

/-- The sites of a document are those of its samples, in order. -/
theorem Experiment.map_sample_sites (e : Experiment) :
    e.sites.map (·.sample) = e.samples :=
  Block.map_sample_sitesList _ _

mutual

theorem Block.exists_inner_of_mem_sites : ∀ (outer : List Scope) (block : Block),
    ∀ site ∈ block.sites outer, ∃ inner, site.scopes = inner ++ block.scope :: outer
  | outer, ⟨_, _, _, _, blocks, _, _, _, _, _, _, _, _⟩, site, hsite => by
      rw [Block.sites, List.mem_append] at hsite
      rcases hsite with hsite | hsite
      · obtain ⟨s, _, rfl⟩ := List.mem_map.mp hsite
        exact ⟨[], rfl⟩
      · exact Block.exists_inner_of_mem_sitesOption _ blocks site hsite

theorem Block.exists_inner_of_mem_sitesOption : ∀ (outer : List Scope)
    (blocks : Option (List Block)), ∀ site ∈ Block.sitesOption outer blocks,
      ∃ inner, site.scopes = inner ++ outer
  | _, none, site, hsite => by simp [Block.sitesOption] at hsite
  | outer, some blocks, site, hsite => by
      rw [Block.sitesOption] at hsite
      exact Block.exists_inner_of_mem_sitesList outer blocks site hsite

theorem Block.exists_inner_of_mem_sitesList : ∀ (outer : List Scope) (blocks : List Block),
    ∀ site ∈ Block.sitesList outer blocks, ∃ inner, site.scopes = inner ++ outer
  | _, [], site, hsite => by simp [Block.sitesList] at hsite
  | outer, block :: rest, site, hsite => by
      rw [Block.sitesList, List.mem_append] at hsite
      rcases hsite with hsite | hsite
      · obtain ⟨inner, hinner⟩ := Block.exists_inner_of_mem_sites outer block site hsite
        exact ⟨inner ++ [block.scope], by rw [hinner, List.append_assoc]; rfl⟩
      · exact Block.exists_inner_of_mem_sitesList outer rest site hsite

end

/-- Whether no scope around a sample declares its bank, apart from a number of outermost ones. -/
def Site.undeclaredWithin (outermost : Nat) (site : Site) : Bool :=
  (site.scopes.take (site.scopes.length - outermost)).all
    fun scope => !site.sample.declaredIn scope.banks

theorem Site.undeclaredWithin_of_scopes {site : Site} {inner outer : List Scope} {scope : Scope}
    (h : site.scopes = inner ++ scope :: outer) :
    site.undeclaredWithin outer.length
      = (!site.sample.declaredIn scope.banks && site.undeclaredWithin (outer.length + 1)) := by
  have hlength : site.scopes.length = inner.length + 1 + outer.length := by
    rw [h, List.length_append, List.length_cons]
    omega
  have hin : site.scopes.take (site.scopes.length - (outer.length + 1)) = inner := by
    rw [hlength, h, show inner.length + 1 + outer.length - (outer.length + 1) = inner.length by
      omega, List.take_left]
  have hout : site.scopes.take (site.scopes.length - outer.length) = inner ++ [scope] := by
    rw [hlength, h, List.append_cons, show inner.length + 1 + outer.length - outer.length
      = (inner ++ [scope]).length by simp, List.take_left]
  unfold undeclaredWithin
  rw [hin, hout, List.all_append, Bool.and_comm]
  simp

/-- No scope stands further in than the innermost one. -/
theorem Site.filter_undeclaredWithin_self (scope : Scope) (outer : List Scope)
    (samples : List Sample) :
    (samples.map fun s => { scopes := scope :: outer, sample := s : Site }).filter
        (Site.undeclaredWithin (outer.length + 1))
      = samples.map fun s => { scopes := scope :: outer, sample := s } := by
  apply List.filter_eq_self.mpr
  intro site hsite
  obtain ⟨s, _, rfl⟩ := List.mem_map.mp hsite
  simp [undeclaredWithin]

mutual

/-- The samples that reach a block are those of its sites for which no scope further in declares
their bank. -/
theorem Block.map_sample_undeclared : ∀ (outer : List Scope) (block : Block),
    ((block.sites outer).filter (Site.undeclaredWithin (outer.length + 1))).map (·.sample)
      = block.reaching
  | outer, ⟨_, _, _, _, blocks, _, _, _, _, _, _, _, _⟩ => by
      rw [Block.sites, Block.reaching, List.filter_append, List.map_append,
        Site.filter_undeclaredWithin_self, List.map_map]
      congr 1
      · exact List.map_id' _
      · exact Block.map_sample_undeclaredOption (_ :: outer) blocks

theorem Block.map_sample_undeclaredOption : ∀ (outer : List Scope) (blocks : Option (List Block)),
    ((Block.sitesOption outer blocks).filter (Site.undeclaredWithin outer.length)).map (·.sample)
      = Block.leavingOption blocks
  | _, none => rfl
  | outer, some blocks => by
      rw [Block.sitesOption, Block.leavingOption]
      exact Block.map_sample_undeclaredList outer blocks

theorem Block.map_sample_undeclaredList : ∀ (outer : List Scope) (blocks : List Block),
    ((Block.sitesList outer blocks).filter (Site.undeclaredWithin outer.length)).map (·.sample)
      = Block.leavingList blocks
  | _, [] => rfl
  | outer, block :: rest => by
      rw [Block.sitesList, Block.leavingList, List.filter_append, List.map_append,
        Block.map_sample_undeclaredList outer rest, ← Block.map_sample_undeclared outer block,
        List.filter_map, List.filter_filter]
      congr 2
      apply List.filter_congr
      intro site hsite
      obtain ⟨inner, hinner⟩ := Block.exists_inner_of_mem_sites outer block site hsite
      exact Site.undeclaredWithin_of_scopes hinner

end

/-- The samples that reach the root are those that no block around them declares. -/
theorem Experiment.map_sample_undeclared (e : Experiment) :
    (e.sites.filter (Site.undeclaredWithin 1)).map (·.sample) = e.scope.reaching :=
  Block.map_sample_undeclaredList [e.scope] e.blocks

/-! ### Declarations that serve -/

/-- Whether some declaration around a sample has its bank and the nearest one serves all samples
bound to it. -/
def Site.Served (site : Site) : Prop :=
  ∃ scope bank, site.nearest = some scope ∧ scope.banks.get? site.sample.bank = some bank ∧
    site.sample ∈ scope.bound site.sample.bank ∧
    bank.Serves (scope.bound site.sample.bank)

end Document

open Document (Scope Site Sample)

/-- A scope that serves its samples serves one that it declares itself. -/
theorem Document.Scope.Served.site {scope : Scope} {site : Site} (h : scope.Served)
    (hnearest : site.nearest = some scope) (hreaches : site.sample ∈ scope.reaching)
    (hdeclared : site.sample.declaredIn scope.banks = true) : site.Served := by
  obtain ⟨bank, hbank⟩ := Assoc.get?_of_contains hdeclared
  refine ⟨scope, bank, hnearest, hbank, ?_, h _ (Assoc.mem_of_get? hbank)⟩
  exact List.mem_filter.mpr ⟨hreaches, by simp⟩

/-! ### Sites of blocks -/

/-- A site is either served, or its sample leaves blocks undeclared and only the scopes around
these count. -/
def ServedOrLeaves (outer : List Scope) (leaving : List Sample) (site : Site) : Prop :=
  site.Served ∨ (site.sample ∈ leaving ∧
    site.nearest = outer.find? fun scope => site.sample.declaredIn scope.banks)

theorem ServedOrLeaves.mono {outer : List Scope} {leaving leaving' : List Sample} {site : Site}
    (h : ServedOrLeaves outer leaving site) (hsubset : leaving ⊆ leaving') :
    ServedOrLeaves outer leaving' site := by
  rcases h with h | ⟨hmem, hnearest⟩
  · exact .inl h
  · exact .inr ⟨hsubset hmem, hnearest⟩

/-- A scope serves the samples that reach it and that it declares, and lets the others go. -/
theorem ServedOrLeaves.close {scope : Scope} {outer : List Scope} {site : Site}
    (hserved : scope.Served) (h : ServedOrLeaves (scope :: outer) scope.reaching site) :
    ServedOrLeaves outer (scope.reaching.filter (!Sample.declaredIn scope.banks ·)) site := by
  rcases h with h | ⟨hmem, hnearest⟩
  · exact .inl h
  · by_cases hdeclared : site.sample.declaredIn scope.banks = true
    · simp only [List.find?_cons, hdeclared] at hnearest
      exact .inl (hserved.site hnearest hmem hdeclared)
    · rw [Bool.not_eq_true] at hdeclared
      simp only [List.find?_cons, hdeclared] at hnearest
      refine .inr ⟨List.mem_filter.mpr ⟨hmem, ?_⟩, hnearest⟩
      simp [hdeclared]

section Blocks

variable {index : Index}

mutual

theorem Block.Resolved.served_or_leaves : ∀ {block : Block} {shown : Document.Block}
    (outer : List Scope), block.Resolved index shown → ∀ site ∈ shown.sites outer,
      ServedOrLeaves outer (shown.reaching.filter (!Sample.declaredIn shown.banks ·)) site
  | _, shown, outer, .mk checked ofPages ofItems ofGroups children guards shape served,
      site, hsite => by
      subst shape
      apply ServedOrLeaves.close served
      rw [Document.Block.sites, List.mem_append] at hsite
      rcases hsite with hsite | hsite
      · obtain ⟨s, hs, rfl⟩ := List.mem_map.mp hsite
        exact .inr ⟨List.mem_append_left _ hs, rfl⟩
      · have hchild := children.served_or_leaves _ site hsite
        exact hchild.mono fun s hs => List.mem_append_right _ hs

theorem Block.ResolvedOption.served_or_leaves : ∀ {blocks : Option (List Block)}
    {shown : Option (List Document.Block)} (outer : List Scope),
    Block.ResolvedOption index blocks shown → ∀ site ∈ Document.Block.sitesOption outer shown,
      ServedOrLeaves outer (Document.Block.leavingOption shown) site
  | _, _, _, .none, site, hsite => by simp [Document.Block.sitesOption] at hsite
  | _, _, outer, .some blocks, site, hsite => by
      rw [Document.Block.sitesOption] at hsite
      rw [Document.Block.leavingOption]
      exact blocks.served_or_leaves outer site hsite

theorem Block.ResolvedList.served_or_leaves : ∀ {blocks : List Block}
    {shown : List Document.Block} (outer : List Scope),
    Block.ResolvedList index blocks shown → ∀ site ∈ Document.Block.sitesList outer shown,
      ServedOrLeaves outer (Document.Block.leavingList shown) site
  | _, _, _, .nil, site, hsite => by simp [Document.Block.sitesList] at hsite
  | _, _, outer, .cons head tail, site, hsite => by
      rw [Document.Block.sitesList, List.mem_append] at hsite
      rw [Document.Block.leavingList]
      rcases hsite with hsite | hsite
      · exact (head.served_or_leaves outer site hsite).mono fun s hs => List.mem_append_left _ hs
      · exact (tail.served_or_leaves outer site hsite).mono fun s hs => List.mem_append_right _ hs

end

end Blocks

/-! ### Compiled documents -/

/-- Each sample of a compiled document stands in the scope of a declaration of its bank, and the
nearest declaration serves all samples bound to it. -/
theorem Experiment.compile_samples_served {e : Experiment} {session : Session}
    {document : Document.Experiment} (h : (e.compile session).outcome = .ok document) :
    document.sites.map (·.sample) = document.samples ∧ ∀ site ∈ document.sites, site.Served := by
  refine ⟨document.map_sample_sites, fun site hsite => ?_⟩
  obtain ⟨expanded, ids, index, slots, hcompiled⟩ := e.compile_ok h
  have hroot := hcompiled.resolves.served _ hcompiled.expands.checkBanks
  rcases hcompiled.resolves.blocks.served_or_leaves _ site hsite with hserved | ⟨hmem, hnearest⟩
  · exact hserved
  · have hdeclared := hcompiled.resolves.bound site.sample hmem
    have hself : document.scope.banks = document.banks := rfl
    simp only [List.find?_cons, hself, hdeclared] at hnearest
    exact hroot.site hnearest hmem hdeclared

/-- The samples of the worked example are served by the bank at the root. -/
theorem Experiment.compile_samples_served_worked :
    Document.Experiment.worked.sites.map (·.sample) = Document.Experiment.worked.samples ∧
      ∀ site ∈ Document.Experiment.worked.sites, site.Served :=
  Experiment.compile_samples_served Experiment.compile_worked

end Paradigm
