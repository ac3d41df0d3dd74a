import RegisterImage.Proofs.Catalog.Coherent
import RegisterImage.Proofs.Plan.Writes
import RegisterImage.Proofs.Settings.Edits
import RegisterImage.Session

/-!
# Plans do not depend on history

What was done with a catalog before settings are compiled cannot be told from the plan. A catalog
that has evolved compiles like one that remembers nothing, and each register adds the writes that
it compiles to alone.

## Main definitions

* `Catalog.Evolves` — the catalogs that a catalog turns into while it is used.
* `Catalog.Evolves.distinct`, `Catalog.Evolves.coherent` — what is kept on the way.
* `Catalog.compile_compile` — compiling again gives the same plan, with repeated codes too.
* `Catalog.compile_of_evolves` — the plan of a catalog that has evolved.
* `Session.compiled_of_run` — the plan at any point of a session.
-/

namespace RegisterImage

namespace Catalog

/-! ## Compiling twice -/

/-- The entries are the same from a memo that remembers every menu that was looked at: both are what
the registers contribute with the menus that are remembered in the end. -/
theorem foldl_compileRegister_congr {s : Settings} {rs : List Register} {entries : List PlanEntry}
    {memo memo' : MenuMemo}
    (h : memo'.Extends (rs.foldl (compileRegister s) (entries, memo)).2) :
    (rs.foldl (compileRegister s) (entries, memo')).1 =
      (rs.foldl (compileRegister s) (entries, memo)).1 := by
  have hlater := extends_foldl_compileRegister s rs (entries, memo')
  rw [foldl_compileRegister (.refl _), foldl_compileRegister (hlater.trans h)]

theorem compile_compile (c : Catalog) (s : Settings) :
    ((c.compile s).2.compile s).1 = (c.compile s).1 := by
  have hentries : ((c.compile s).2.compile s).1.entries = (c.compile s).1.entries :=
    foldl_compileRegister_congr (.refl _)
  calc ((c.compile s).2.compile s).1
      = ⟨((c.compile s).2.compile s).1.entries, c.opening, c.closing⟩ := rfl
    _ = (c.compile s).1 := by rw [hentries]; rfl

/-! ## Catalogs in use -/

/-- The catalogs that a catalog turns into while menus of its registers are looked at, settings
are changed and compiled, and registers are replaced. -/
inductive Evolves (c : Catalog) : Catalog → Prop where
  | refl : Evolves c c
  | menu {c' : Catalog} {r : Register} :
      Evolves c c' → r ∈ c'.registers → Evolves c (c'.menu r).2
  | change {c' : Catalog} (s : Settings) (change : Change) :
      Evolves c c' → Evolves c (change.apply (s, c')).2
  | compile {c' : Catalog} (s : Settings) : Evolves c c' → Evolves c (c'.compile s).2
  | replace {c' c'' : Catalog} {r : Register} :
      Evolves c c' → c'.replace r = .ok c'' → Evolves c c''

namespace Evolves

variable {c c' : Catalog}

/-- By induction on the use of the catalog; only a replacement changes the registers. -/
theorem distinct (h : c.Evolves c') (hc : c.Distinct) : c'.Distinct := by
  induction h with
  | refl => exact hc
  | menu _ hr ih => exact (ih.alike_menu hr).distinct ih
  | change s change _ ih => exact (Change.alike_apply ih change).distinct ih
  | compile s _ ih => exact (ih.alike_compile s).distinct ih
  | replace _ hreplace ih => exact ih.replace hreplace

/-- By induction on the use of the catalog. -/
theorem coherent (h : c.Evolves c') (hdistinct : c.Distinct) (hmemo : c.memo = []) :
    c'.Coherent := by
  induction h with
  | refl => exact coherent_of_memo_eq_nil hmemo
  | menu h hr ih => exact ((h.distinct hdistinct).alike_menu hr).coherent ih
  | change s change h ih => exact (Change.alike_apply (h.distinct hdistinct) change).coherent ih
  | compile s h ih => exact ((h.distinct hdistinct).alike_compile s).coherent ih
  | replace _ hreplace ih => exact ih.replace hreplace

theorem compile_eq_forgetful (h : c.Evolves c') (hdistinct : c.Distinct) (hmemo : c.memo = [])
    (s : Settings) : (c'.compile s).1 = (c'.forgetful.compile s).1 :=
  (h.coherent hdistinct hmemo).alike_forgetful.compile_eq (h.distinct hdistinct) s

end Evolves

/-! ## Plans of coherent catalogs -/

/-- A catalog of one register alone, with nothing remembered. -/
def alone (c : Catalog) (r : Register) : Catalog :=
  { c with registers := [r], memo := [] }

theorem compile_alone (c : Catalog) (r : Register) (s : Settings) :
    ((c.alone r).compile s).1 =
      ⟨r.contribution s (Menu.ofRegister r) 0, c.opening, c.closing⟩ := by
  have hentries : ((c.alone r).compile s).1.entries =
      r.contribution s (Menu.ofRegister r) 0 := by
    rw [Distinct.compile_entries (c := c.alone r) (List.nodup_singleton _) s]
    exact List.append_nil _
  calc ((c.alone r).compile s).1
      = ⟨((c.alone r).compile s).1.entries, c.opening, c.closing⟩ := rfl
    _ = ⟨r.contribution s (Menu.ofRegister r) 0, c.opening, c.closing⟩ := by rw [hentries]

theorem Coherent.operations_eq {c : Catalog} (h : c.Coherent) (hc : c.Distinct) (s : Settings) :
    (c.compile s).1.operations =
      c.registers.flatMap fun r => ((c.alone r).compile s).1.operations := by
  rw [hc.operations_eq]
  refine List.flatMap_congr fun r hr => ?_
  rw [compile_alone, h r hr]
  rfl

/-- A register alone is compiled from its own value and its own preset. -/
theorem compile_alone_congr (c : Catalog) {r : Register} {s s' : Settings}
    (hvalue : s.value? r.code = s'.value? r.code)
    (hpreset : s.preset? r.code = s'.preset? r.code) :
    ((c.alone r).compile s).1 = ((c.alone r).compile s').1 := by
  rw [compile_alone, compile_alone, Register.contribution, Register.contribution, hvalue, hpreset]

/-- Compiling does not depend on what was done with a catalog before. The plan is that of the same
registers with nothing remembered, and its writes are those of the registers alone, one after the
other, each of which depends on the value and the preset of that register. A new definition of a
register counts at once. With repeated codes, a plan that was just compiled is compiled again. -/
theorem compile_of_evolves :
    (∀ (c : Catalog) (s : Settings), ((c.compile s).2.compile s).1 = (c.compile s).1) ∧
    ∀ c c' : Catalog, c.Distinct → c.memo = [] → c.Evolves c' →
      (∀ s, (c'.compile s).1 = (c'.forgetful.compile s).1 ∧ (c'.compile s).1.operations =
        c'.registers.flatMap fun r => ((c'.alone r).compile s).1.operations) ∧
      (∀ r s s', s.value? r.code = s'.value? r.code → s.preset? r.code = s'.preset? r.code →
        ((c'.alone r).compile s).1 = ((c'.alone r).compile s').1) ∧
      ∀ r c'', c'.replace r = .ok c'' →
        (∃ before old after, c'.registers = before ++ old :: after ∧ old.code = r.code ∧
          c''.registers = before ++ r :: after) ∧
        (c''.menu r).1 = Menu.ofRegister r ∧
        ∀ s, (c''.compile s).1 = (c''.forgetful.compile s).1 := by
  refine ⟨compile_compile, fun c c' hc hmemo hevolves => ?_⟩
  have hcoherent := hevolves.coherent hc hmemo
  refine ⟨fun s => ⟨?_, ?_⟩, fun r s s' hvalue hpreset => ?_, fun r c'' hreplace => ?_⟩
  · exact hevolves.compile_eq_forgetful hc hmemo s
  · exact hcoherent.operations_eq (hevolves.distinct hc) s
  · exact compile_alone_congr c' hvalue hpreset
  · obtain ⟨before, old, after, hregisters, hcode, -, hnew⟩ := exists_of_replace hreplace
    have hregisters' : c''.registers = before ++ r :: after := by rw [hnew]
    exact ⟨⟨before, old, after, hregisters, hcode, hregisters'⟩,
      hcoherent.replace hreplace r (by simp [hregisters']),
      (hevolves.replace hreplace).compile_eq_forgetful hc hmemo⟩

/-- A register with a chosen preset is replaced after its menu was looked at, and the sequence of
the new menu is compiled. -/
theorem compile_of_evolves_replace :
    let preset (more : Entries) : Json :=
      .obj ([("value", .str "0x3"), ("label", .str "Fast")] ++ more)
    let lane (more : Entries) : Register := ⟨"LANE", none, none, .text "0x400", some (.int 1),
      some (.text "0x0"), none, false, .plain, none, none, some [preset more], none⟩
    let lock : Register := ⟨"LOCK", none, none, .text "0x408", some (.int 1), some (.text "0x1"),
      none, true, .plain, none, none, none, none⟩
    let c : Catalog := ⟨.null, [lane [], lock], none, none, []⟩
    let chosen := Change.apply (.empty, c) (.selectPreset "LANE" "Fast")
    let s := chosen.1
    let c' := (chosen.2.compile s).2
    let locked : Settings := { s with values := s.values.insert "LOCK" "0x9" }
    let stepped := lane [("sequence", .arr [.int 1, .int 2])]
    c.Distinct ∧ c.memo = [] ∧ c.Evolves c' ∧
      (c'.compile s).1.operations = [⟨0, 0x400, 3, 1⟩, ⟨0, 0x408, 1, 1⟩] ∧
      ((c'.alone (lane [])).compile s).1 = ((c'.alone (lane [])).compile locked).1 ∧
      ∃ c'', c'.replace stepped = .ok c'' ∧ (c''.menu stepped).1 = Menu.ofRegister stepped ∧
        (c''.compile s).1 = (c''.forgetful.compile s).1 ∧
        (c''.compile s).1.operations =
          [⟨0, 0x400, 1, 1⟩, ⟨0, 0x400, 2, 1⟩, ⟨0, 0x400, 3, 1⟩, ⟨0, 0x408, 1, 1⟩] := by
  intro preset lane lock c chosen s c' locked stepped
  have hdistinct : c.Distinct := by decide
  have hevolves : c.Evolves c' := .compile s (.change .empty _ .refl)
  have hbefore : (c'.compile s).1.operations = [⟨0, 0x400, 3, 1⟩, ⟨0, 0x408, 1, 1⟩] := by
    decide +kernel
  let c'' : Catalog :=
    { c' with registers := replaceLast stepped c'.registers, memo := c'.memo.forget stepped.code }
  have hcontains : c'.contains stepped.code = true := by decide +kernel
  have hreplace : c'.replace stepped = .ok c'' := if_pos hcontains
  have hafter : (c''.compile s).1.operations =
      [⟨0, 0x400, 1, 1⟩, ⟨0, 0x400, 2, 1⟩, ⟨0, 0x400, 3, 1⟩, ⟨0, 0x408, 1, 1⟩] := by
    decide +kernel
  have hvalue : s.value? "LANE" = locked.value? "LANE" := by decide +kernel
  obtain ⟨-, halone, hreplaced⟩ := compile_of_evolves.2 c c' hdistinct rfl hevolves
  obtain ⟨-, hmenu, hplan⟩ := hreplaced stepped c'' hreplace
  exact ⟨hdistinct, rfl, hevolves, hbefore, halone (lane []) s locked hvalue rfl, c'', hreplace,
    hmenu, hplan s, hafter⟩

end Catalog

/-! ## Sessions -/

namespace Session

/-- What a step does to the catalog is one use of it. -/
theorem evolves_step {c : Catalog} {s : Session} (h : c.Evolves s.catalog) (step : Step) :
    c.Evolves (s.step step).2.catalog := by
  cases step with
  | setValue code text =>
    have := h.change s.settings (.setValue code text)
    unfold Change.apply at this
    simp only [Session.step, setValue]
    split <;> simp_all
  | selectPreset code label =>
    have := h.change s.settings (.selectPreset code label)
    unfold Change.apply at this
    simp only [Session.step, selectPreset]
    split <;> simp_all
  | clearPreset | reset | query | profile | load | patch | truncate | inspect => exact h
  | applyValues values =>
    simp only [Session.step, applyValues]
    split
    · exact h
    · exact h.change s.settings (.applyValues _)
  | applyProfile document =>
    simp only [Session.step, applyProfile]
    split
    · exact h
    · exact h.change s.settings (.applyValues _)
  | applyWrites writes => exact h.change s.settings (.applyWrites writes)
  | applyImage =>
    simp only [Session.step, applyImage]
    split
    · exact h
    · exact h
    · exact h.change s.settings (.applyWrites _)
  | compile => exact h.compile s.settings
  | replace register =>
    simp only [Session.step, replace]
    split
    · exact h
    · split
      · exact h.replace ‹_›
      · exact h
  | menu code =>
    simp only [Session.step, menu]
    split
    · exact h
    · rename_i hfound
      exact h.menu (Catalog.mem_of_register? hfound).1
  | header chip info => exact h.compile s.settings
  | image chip info body =>
    simp only [Session.step, image]
    split <;> exact h.compile s.settings
  | build request =>
    simp only [Session.step, build]
    split <;> exact h.compile s.settings

theorem evolves_run {c : Catalog} {s : Session} (h : c.Evolves s.catalog) {steps : List Step}
    {outcome : Except Error Answer × Session} (houtcome : outcome ∈ s.run steps) :
    c.Evolves outcome.2.catalog := by
  induction steps generalizing s with
  | nil => exact absurd houtcome List.not_mem_nil
  | cons step steps ih =>
    have hstep := evolves_step h step
    rcases List.mem_cons.1 houtcome with rfl | houtcome
    · exact hstep
    · exact ih hstep houtcome

/-- After any steps, settings are compiled as if the session had just been started. -/
theorem compiled_of_run {c : Catalog} (hdistinct : c.Distinct) (hmemo : c.memo = [])
    {steps : List Step} {outcome : Except Error Answer × Session}
    (houtcome : outcome ∈ (start c).run steps) :
    outcome.2.compiled.1 = (outcome.2.catalog.forgetful.compile outcome.2.settings).1 :=
  (evolves_run .refl houtcome).compile_eq_forgetful hdistinct hmemo _

end Session

end RegisterImage
