import RegisterImage.Proofs.Image.RoundTrip
import RegisterImage.Proofs.Plan.Compiled
import RegisterImage.Proofs.Settings.Agree
import RegisterImage.Proofs.Settings.Edits

/-!
# Images keep the settings

Settings that were entered as values survive an image: reading the writes of the image back gives
the same edits, and compiling them gives the same writes.

## Main definitions

* `Catalog.Separate` — every write of a plan is for one register or for none.
* `Settings.Writable` — every edit can be written, and as the value of its register.
* `Settings.Consistent.imported_eq` — what comes back from the writes of a plan.
* `import_of_image` — what comes back from an image.
-/

namespace RegisterImage

structure Catalog.Separate (c : Catalog) : Prop where
  distinct : c.Distinct
  address_le : ∀ r ∈ c.registers, r.addressValue?.any (· ≤ 0xFFFFF)
  slot_ne : c.registers.Pairwise fun r r' => r.slot?.isSome → r.slot? ≠ r'.slot?
  slot_opening : ∀ r ∈ c.registers, ∀ w ∈ c.opening, r.slot? ≠ some w.slot
  slot_closing : ∀ r ∈ c.registers, ∀ w ∈ c.closing, r.slot? ≠ some w.slot
  default_of_required : ∀ r ∈ c.registers, r.required → r.defaultHex ≠ ""

structure Settings.Writable (s : Settings) (c : Catalog) : Prop where
  accepted : ∀ r ∈ c.registers, s.isEdited r.code → ∀ v ∈ s.value? r.code,
    r.width?.isSome ∧ r.accepts v
  plain : ∀ r ∈ c.registers, ∀ p ∈ r.selected? s (c.menu r).1, p.writes = none

instance (c : Catalog) : Decidable c.Separate :=
  decidable_of_iff (c.Distinct ∧ (∀ r ∈ c.registers, r.addressValue?.any (· ≤ 0xFFFFF)) ∧
      (c.registers.Pairwise fun r r' => r.slot?.isSome → r.slot? ≠ r'.slot?) ∧
      (∀ r ∈ c.registers, ∀ w ∈ c.opening, r.slot? ≠ some w.slot) ∧
      (∀ r ∈ c.registers, ∀ w ∈ c.closing, r.slot? ≠ some w.slot) ∧
      ∀ r ∈ c.registers, r.required → r.defaultHex ≠ "")
    ⟨fun ⟨h, h', h'', h₁, h₂, h₃⟩ => ⟨h, h', h'', h₁, h₂, h₃⟩,
      fun ⟨h, h', h'', h₁, h₂, h₃⟩ => ⟨h, h', h'', h₁, h₂, h₃⟩⟩

instance (s : Settings) (c : Catalog) : Decidable (s.Writable c) :=
  decidable_of_iff ((∀ r ∈ c.registers, s.isEdited r.code → ∀ v ∈ s.value? r.code,
      r.width?.isSome ∧ r.accepts v) ∧
      ∀ r ∈ c.registers, ∀ p ∈ r.selected? s (c.menu r).1, p.writes = none)
    ⟨fun ⟨haccepted, hplain⟩ => ⟨haccepted, hplain⟩,
      fun ⟨haccepted, hplain⟩ => ⟨haccepted, hplain⟩⟩

/-! ## All registers -/

theorem flatMap_eq_of_forall_ne {α β : Type} {xs : List α} (hnodup : xs.Nodup) {x : α}
    (hx : x ∈ xs) {f : α → List β} (h : ∀ y ∈ xs, y ≠ x → f y = []) : xs.flatMap f = f x := by
  induction xs with
  | nil => exact absurd hx List.not_mem_nil
  | cons y xs ih =>
    obtain ⟨hy, hnodup⟩ := List.nodup_cons.1 hnodup
    obtain ⟨hhead, htail⟩ := List.forall_mem_cons.1 h
    rw [List.flatMap_cons]
    rcases List.mem_cons.1 hx with rfl | hx
    · have hnil : xs.flatMap f = [] := List.flatMap_eq_nil_iff.2 fun z hz =>
        htail z hz fun hzx => hy (hzx ▸ hz)
      rw [hnil, List.append_nil]
    · rw [hhead fun hyx => hy (hyx ▸ hx), List.nil_append, ih hnodup hx htail]

namespace Catalog

variable {c : Catalog} {s : Settings}

theorem Separate.slot_ne_of_ne (hc : c.Separate) {r r' : Register} (hr : r ∈ c.registers)
    (hr' : r' ∈ c.registers) (hne : r ≠ r') (hslot : r.slot?.isSome) : r.slot? ≠ r'.slot? := by
  have : Std.Symm fun r r' : Register => r.slot?.isSome → r.slot? ≠ r'.slot? :=
    ⟨fun _ _ h hslot' heq => h (heq ▸ hslot') heq.symm⟩
  exact hc.slot_ne.forall hr hr' hne hslot

theorem Separate.exists_address (hc : c.Separate) {r : Register} (hr : r ∈ c.registers) :
    ∃ address, r.addressValue? = some address ∧ address ≤ 0xFFFFF := by
  obtain ⟨address, haddress, hle⟩ := (Option.any_eq_true _ _).1 (hc.address_le r hr)
  exact ⟨address, haddress, of_decide_eq_true hle⟩

theorem Separate.filter_slot (hc : c.Separate)
    (hplain : ∀ r ∈ c.registers, r.WritesItself s (c.menu r).1) {r : Register}
    (hr : r ∈ c.registers) :
    (c.compile s).1.writes.filter (·.Reaches r) = r.writes s (c.menu r).1 := by
  have hreaches {r' : Register} (hr' : r' ∈ c.registers) {w : DeviceWrite}
      (hw : w ∈ r'.writes s (c.menu r').1) : r'.slot? = some w.slot := by
    obtain ⟨address, haddress, hle⟩ := hc.exists_address hr'
    exact (hplain r' hr').slot?_of_mem_writes haddress hle hw
  have hopening : (c.opening.toList).filter (·.Reaches r) = [] :=
    List.filter_eq_nil_iff.2 fun w hw hslot =>
      hc.slot_opening r hr w (Option.mem_toList.1 hw) (of_decide_eq_true hslot)
  have hclosing : (c.closing.toList).filter (·.Reaches r) = [] :=
    List.filter_eq_nil_iff.2 fun w hw hslot =>
      hc.slot_closing r hr w (Option.mem_toList.1 hw) (of_decide_eq_true hslot)
  have hown : (r.writes s (c.menu r).1).filter (·.Reaches r) = r.writes s (c.menu r).1 :=
    List.filter_eq_self.2 fun w hw => decide_eq_true (hreaches hr hw)
  have hother : ∀ r' ∈ c.registers, r' ≠ r →
      (r'.writes s (c.menu r').1).filter (·.Reaches r) = [] := fun r' hr' hne =>
    List.filter_eq_nil_iff.2 fun w hw hslot =>
      have hslot' := hreaches hr' hw
      hc.slot_ne_of_ne hr' hr hne (by simp [hslot'])
        (hslot'.trans (of_decide_eq_true hslot : r.slot? = some w.slot).symm)
  have hopen : (c.compile s).1.opening = c.opening := rfl
  have hclose : (c.compile s).1.closing = c.closing := rfl
  rw [Plan.writes, hopen, hclose, List.filter_append, List.filter_append, hopening, hclosing,
    List.nil_append, List.append_nil, hc.distinct.operations_eq s, List.filter_flatMap,
    flatMap_eq_of_forall_ne (hc.distinct.of_map _) hr hother, hown]

end Catalog

namespace Settings

variable {c c' : Catalog} {s : Settings}

theorem Writable.writesItself (h : s.Writable c) :
    ∀ r ∈ c.registers, r.WritesItself s (c.menu r).1 := fun r hr =>
  Option.bind_eq_none_iff.2 fun p hp => h.plain r hr p hp

/-- Settings that are read back from the writes of a plan agree with those that were compiled. -/
theorem Consistent.readBack (hs : s.Consistent c) (hc : c.Separate) (hw : s.Writable c)
    (halike : c'.Alike c) {r : Register} (hr : r ∈ c.registers) :
    s.Agree (empty.applyWrites c' (c.compile s).1.writes).1 r := by
  obtain ⟨address, haddress, -⟩ := hc.exists_address hr
  have hback := value?_applyWrites (halike.distinct hc.distinct) (halike.registers ▸ hr)
    (c.compile s).1.writes
  rw [hc.filter_slot hw.writesItself hr] at hback
  exact (hs.settled r hr).readBack (hw.writesItself r hr) haddress
    (hc.default_of_required r hr) (hw.accepted r hr) hback

/-- The same edits and the same writes come back from the writes of a plan. -/
theorem Consistent.imported_eq (hs : s.Consistent c) (hc : c.Separate) (hw : s.Writable c)
    (halike : c'.Alike c) :
    let imported := empty.applyWrites c' (c.compile s).1.writes
    imported.1.editedValues = s.editedValues ∧
      (imported.2.1.compile imported.1).1.operations = (c.compile s).1.operations := by
  intro imported
  have hsets : (Change.applyWrites (c.compile s).1.writes).SetsValues := trivial
  obtain ⟨hs', halike'⟩ : imported.1.Consistent c ∧ imported.2.1.Alike c :=
    Change.consistent_apply (consistent_empty c) hc.distinct halike hsets
  have hagree : ∀ r ∈ c.registers, s.Agree imported.1 r := fun r hr =>
    hs.readBack hc hw halike hr
  refine ⟨(hs.editedValues_eq hs' hagree).symm, ?_⟩
  rw [halike'.compile_eq hc.distinct, hs.compile_eq hs' hagree hc.distinct]

end Settings

/-- Settings that were entered as values are read back from an image with the same edits, and
compiled to the same writes. -/
theorem import_of_image {c : Catalog} (hloaded : c.Loaded) (hc : c.Separate)
    {changes : List Change} (hchanges : ∀ change ∈ changes, change.SetsValues)
    {s : Settings} {c' : Catalog} (hrun : Change.run c changes = (s, c')) (hw : s.Writable c)
    (chip : Chip) {info : Info} (hinfo : info.Proper) {header : Bytes}
    (hheader : buildHeader chip info (c'.compile s).1 = .ok header) (body : Bytes) :
    ∃ table, RecordTable.ofBytes? (buildImage chip header body) = .ok (some table) ∧
      let imported := Settings.empty.applyWrites (c'.compile s).2 table.writes
      imported.1.editedValues = s.editedValues ∧
        (imported.2.1.compile imported.1).1.operations = (c'.compile s).1.operations := by
  obtain ⟨hs, halike⟩ := Change.consistent_run hc.distinct hchanges
  rw [hrun] at hs halike
  have hplan : (c'.compile s).1.Encodable := Catalog.encodable_compile_of
    (halike.opening ▸ hloaded.encodable.1) (halike.closing ▸ hloaded.encodable.2) s
  obtain ⟨rest, hrest⟩ := prefix_buildImage chip header body
  have htable := RecordTable.ofBytes?_of_buildHeader hinfo hplan hheader rest
  rw [hrest] at htable
  refine ⟨_, htable, ?_⟩
  have halike' := ((halike.distinct hc.distinct).alike_compile s).trans halike
  rw [halike.compile_eq hc.distinct]
  exact hs.imported_eq hc hw halike'

theorem import_of_image_with_preset :
    let document : Json := .obj [
      ("cc_prefix", .obj [("address", .str "0xF000"), ("value", .str "0x1"), ("size", .int 1)]),
      ("groups", .arr [.obj [("code", .str "phy"), ("items", .arr [
        .obj [("code", .str "LOCK"), ("address", .str "0x400"), ("size_bytes", .int 1),
          ("default", .str "0x1"), ("required", .bool true)],
        .obj [("code", .str "MODE"), ("address", .str "0x20400"), ("size_bytes", .int 2),
          ("default", .str "0x0"), ("byte_fields", .arr [.obj [("value", .str "0x3"),
            ("label", .str "Fast"), ("sequence", .arr [.int 1, .int 2])]])],
        .obj [("code", .str "LANE"), ("address", .str "0x20400"), ("size_bytes", .int 4),
          ("default", .str "0x7")]])]])]
    let changes : List Change := [.applyValues [("LANE", .text "10000"), ("LOST", .text "1")],
      .setValue "MODE" "3", .setValue "LANE" " "]
    let info := Info.ofText (some "board 7")
    let operations : List DeviceWrite :=
      [⟨0, 0x400, 1, 1⟩, ⟨2, 0x400, 1, 2⟩, ⟨2, 0x400, 2, 2⟩, ⟨2, 0x400, 3, 2⟩]
    info.Proper ∧ ∃ c, c.Loaded ∧ Catalog.ofDocument document = .ok c ∧ c.Separate ∧
      (∀ change ∈ changes, change.SetsValues) ∧
      ∃ s c', Change.run c changes = (s, c') ∧ s.Writable c ∧
        (c'.compile s).1.operations = operations ∧
        ∃ header table, buildHeader .prom21 info (c'.compile s).1 = .ok header ∧
          RecordTable.ofBytes? (buildImage .prom21 header [0xCC]) = .ok (some table) ∧
          let imported := Settings.empty.applyWrites (c'.compile s).2 table.writes
          imported.1.editedValues = [("MODE", "0x3")] ∧
            (imported.2.1.compile imported.1).1.operations = operations := by
  intro document changes info operations
  let lock : Register := ⟨"LOCK", none, none, .text "0x400", some (.int 1), some (.text "0x1"),
    none, true, .plain, none, none, none, none⟩
  let mode : Register := ⟨"MODE", none, none, .text "0x20400", some (.int 2), some (.text "0x0"),
    none, false, .plain, none, none, some [.obj [("value", .str "0x3"), ("label", .str "Fast"),
      ("sequence", .arr [.int 1, .int 2])]], none⟩
  let lane : Register := ⟨"LANE", none, none, .text "0x20400", some (.int 4), some (.text "0x7"),
    none, false, .plain, none, none, none, none⟩
  let c : Catalog := ⟨document, [lock, mode, lane], some ⟨0, 0xF000, 1, 1⟩, none, []⟩
  have hinfo : info.Proper := .inr ⟨_, rfl⟩
  have hdocument : Catalog.ofDocument document = .ok c := by cbv
  have hloaded : c.Loaded := .ofDocument hdocument
  have hc : c.Separate := by decide
  have hchanges : ∀ change ∈ changes, change.SetsValues := by
    simp [changes, Change.SetsValues]
  have hw : (Change.run c changes).1.Writable c := by decide
  have hedits : (Change.run c changes).1.editedValues = [("MODE", "0x3")] := by decide
  have hwrites : ((Change.run c changes).2.compile (Change.run c changes).1).1.writes =
      ⟨0, 0xF000, 1, 1⟩ :: operations := by decide
  have hoperations : ((Change.run c changes).2.compile (Change.run c changes).1).1.operations =
      operations := by decide
  rcases hrun : Change.run c changes with ⟨s, c'⟩
  rw [hrun] at hw hedits hwrites hoperations
  have hwidth : ∀ w ∈ (c'.compile s).1.writes, IsWidth w.size := by
    rw [hwrites]
    decide
  have hfits : leadLength + (headerBody info (c'.compile s).1).length < 0x10000 := by
    have hle := length_headerBody_le hinfo hwidth
    rw [hwrites] at hle
    exact Nat.lt_of_le_of_lt hle (by decide)
  obtain ⟨header, hheader⟩ := buildHeader_of_fits .prom21 hfits
  obtain ⟨table, htable, hedits', hoperations'⟩ :=
    import_of_image hloaded hc hchanges hrun hw .prom21 hinfo hheader [0xCC]
  exact ⟨hinfo, c, hloaded, hdocument, hc, hchanges, s, c', hrun, hw, hoperations, header, table,
    hheader, htable, hedits'.trans hedits, hoperations'.trans hoperations⟩

end RegisterImage
