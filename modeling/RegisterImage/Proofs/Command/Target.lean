import RegisterImage.Proofs.Command.Paths
import RegisterImage.Proofs.Command.Runs
import RegisterImage.Proofs.Image.Extract
import RegisterImage.Proofs.Image.Rebuild
import RegisterImage.Proofs.Text.Numeral

/-!
# Where images are written

The default name of an image is made from the name of a profile and from a version. Blanks and
dashes of the name do not survive, but its slashes do: the image is written in the directory of the
input if the name is one step of a path, and a name that begins with a slash leads out of that
directory altogether.

## Main definitions

* `IsDateLabel` — the versions that can stand in a name.
* `Setup.GivesName` — the name of the profile of a setup.
* `Command.path_of_runBuild` — where the image of a setup without an output path is written.
-/

namespace RegisterImage

/-! ## Names -/

/-- The version of some firmware, or the word for an unknown one. -/
def IsDateLabel (label : String) : Prop :=
  label = FirmwareInfo.unknownDate ∨
    ∃ data offset info, FirmwareInfo.ofBytes? data offset = some info ∧ info.dateLabel = label

/-- A character that neither parts words nor parts steps of a path. -/
def IsPlain (c : Char) : Prop :=
  isSeparator c = false ∧ c ≠ '/'

instance (c : Char) : Decidable (IsPlain c) :=
  inferInstanceAs (Decidable (_ ∧ _))

theorem isPlain_digitChar {d : Nat} (h : d < 16) : IsPlain (digitChar d) := by
  have hall : ∀ d : Fin 16, IsPlain (digitChar d) := by decide
  exact hall ⟨d, h⟩

theorem isPlain_of_mem_hexByte (b : UInt8) : ∀ c ∈ (hexByte b).toList, IsPlain c := by
  intro c hc
  rw [hexByte, String.toList_ofList, paddedNumeral, List.mem_append] at hc
  rcases hc with hzero | hdigit
  · rw [List.eq_of_mem_replicate hzero]
    decide
  · obtain ⟨d, hd, rfl⟩ := List.mem_map.1 hdigit
    exact isPlain_digitChar (lt_of_mem_digits (by decide) hd)

theorem isPlain_of_dateText? {bs : Bytes} {date : String} (h : dateText? bs = some date) :
    ∀ c ∈ date.toList, IsPlain c := by
  have hunderscore : ∀ c ∈ "_".toList, IsPlain c := List.forall_mem_singleton.2 (by decide)
  match bs, h with
  | _ :: _ :: _ :: _ :: _ :: _ :: _, h =>
    obtain rfl := Option.some.inj h
    simp only [String.toList_append, List.forall_mem_append]
    have hbyte := isPlain_of_mem_hexByte
    exact ⟨⟨⟨⟨⟨⟨⟨⟨hbyte _, hbyte _⟩, hbyte _⟩, hunderscore⟩, hbyte _⟩, hunderscore⟩, hbyte _⟩,
      hunderscore⟩, hbyte _⟩

theorem IsDateLabel.isPlain {label : String} (h : IsDateLabel label) :
    ∀ c ∈ label.toList, IsPlain c := by
  have hletters : FirmwareInfo.unknownDate.toList.all (IsPlain ·) := by decide
  have hunknown : ∀ c ∈ FirmwareInfo.unknownDate.toList, IsPlain c := fun c hc =>
    of_decide_eq_true (List.all_eq_true.1 hletters c hc)
  obtain rfl | ⟨data, offset, info, hinfo, rfl⟩ := h
  · exact hunknown
  · obtain ⟨chip, -, rfl⟩ := FirmwareInfo.ofBytes?_eq_some_iff.1 hinfo
    rw [FirmwareInfo.dateLabel]
    cases hdate : dateText? (data.drop offset) with
    | none => exact hunknown
    | some date => exact isPlain_of_dateText? hdate

/-- Underscores apart, which also stand for what was between words. -/
theorem mem_joinWords_iff {c : Char} (hc : c ≠ '_') (afterSeparator : Bool) (s : List Char) :
    c ∈ joinWords afterSeparator s ↔ c ∈ s ∧ isSeparator c = false := by
  fun_induction joinWords afterSeparator s with
  | case1 => simp
  | case2 d s hseparator ih => grind
  | case3 b d s hseparator hfirst ih => grind
  | case4 b d s hletter ih => grind

section Name

variable {label : String}

theorem toList_outputName (profileName label : String) :
    (outputName profileName label).toList =
      joinWords false profileName.toList ++ ('_' :: label.toList ++ "_SPI.bin".toList) := by
  simp [outputName]

/-- A name ends with a letter, so that nothing at its end is idle. -/
theorem reverse_outputName (profileName label : String) :
    ∃ s, (outputName profileName label).toList.reverse = 'n' :: s := by
  rw [toList_outputName, List.reverse_append, List.reverse_append]
  exact ⟨_, rfl⟩

/-- What stands behind the profile in the name of an image is plain. -/
theorem isPlain_of_mem_label (hlabel : IsDateLabel label) :
    ∀ c ∈ '_' :: label.toList ++ "_SPI.bin".toList, IsPlain c := by
  have hletters : "_SPI.bin".toList.all (IsPlain ·) := by decide
  exact List.forall_mem_append.2 ⟨List.forall_mem_cons.2 ⟨by decide, hlabel.isPlain⟩,
    fun c hc => of_decide_eq_true (List.all_eq_true.1 hletters c hc)⟩

/-- Whatever else a name consists of, no blank and no dash is left in it. -/
theorem isSeparator_of_mem_outputName (profileName : String) (hlabel : IsDateLabel label) :
    ∀ c ∈ (outputName profileName label).toList, isSeparator c = false := by
  rw [toList_outputName, List.forall_mem_append]
  refine ⟨fun c hc => ?_, fun c hc => (isPlain_of_mem_label hlabel c hc).1⟩
  by_cases hjoint : c = '_'
  · rw [hjoint]
    decide
  · exact ((mem_joinWords_iff hjoint ..).1 hc).2

/-- The slashes of a profile name are kept, and there are no others. -/
theorem slash_mem_outputName_iff (profileName : String) (hlabel : IsDateLabel label) :
    '/' ∈ (outputName profileName label).toList ↔ '/' ∈ profileName.toList := by
  have hbehind : '/' ∉ '_' :: label.toList ++ "_SPI.bin".toList := fun hc =>
    (isPlain_of_mem_label hlabel '/' hc).2 rfl
  rw [toList_outputName, List.mem_append, or_iff_left hbehind, mem_joinWords_iff (by decide)]
  exact and_iff_left (by decide)

theorem isAbsolute_outputName (profileName label : String) :
    Path.isAbsolute (outputName profileName label) = Path.isAbsolute profileName := by
  rw [Path.isAbsolute, Path.isAbsolute, toList_outputName]
  cases profileName.toList with
  | nil => rfl
  | cons c s =>
    rw [joinWords]
    split
    · rename_i hseparator
      have hslash : c ≠ '/' := by
        rintro rfl
        exact absurd hseparator (by decide)
      simp [hslash]
    · rfl

end Name

/-! ## The name of a profile -/

namespace Setup

variable {files : Files} {s : Setup}

/-- The name that is asked for, else the one that the profile gives itself. -/
inductive GivesName (files : Files) (s : Setup) : String → Prop
  | asked (h : s.profileName ≠ "") : GivesName files s s.profileName
  | own {path : String} {document : Json} (h : s.profileName = "") (hpath : s.profile = some path)
    (hdocument : (readDocument files path).Gives document) : GivesName files s (ownName document)
  | unnamed (h : s.profileName = "") (hpath : s.profile = none) : GivesName files s ""

theorem givesName_of_profileValues {c : Catalog} {values : List (String × Scalar)} {name : String}
    (h : (s.profileValues files c).Gives (values, name)) :
    GivesName files s (if s.profileName.isEmpty then name else s.profileName) := by
  split
  · rename_i hempty
    rw [String.isEmpty_iff] at hempty
    unfold profileValues at h
    split at h
    · rename_i hpath
      obtain ⟨rfl, rfl⟩ := Prod.mk.inj (Run.gives_pure_iff.1 h)
      exact .unnamed hempty hpath
    · rename_i path hpath
      obtain ⟨document, hdocument, h⟩ := h.exists_of_bind
      split at h
      · obtain ⟨rfl, rfl⟩ := Prod.mk.inj (Run.gives_pure_iff.1 h)
        exact .own hempty hpath hdocument
      · exact absurd h (Run.not_gives_throw _)
  · rename_i hname
    exact .asked (by simpa [String.isEmpty_iff] using hname)

theorem givesName_of_prepare {c : Catalog} {ready : Prepared}
    (h : (s.prepare files c).Gives ready) : GivesName files s ready.profileName := by
  obtain ⟨⟨values, name⟩, hvalues, h⟩ := h.exists_of_bind
  have hname := givesName_of_profileValues hvalues
  dsimp only at h
  split at h
  · obtain rfl := Run.gives_pure_iff.1 h
    exact hname
  · obtain ⟨-, -, h⟩ := h.exists_of_bind
    obtain rfl := Run.gives_pure_iff.1 h
    exact hname

theorem givesName_of_plan {plan : Plan} {name : String} (h : (s.plan files).Gives (plan, name)) :
    GivesName files s name := by
  obtain ⟨c, -, h⟩ := h.exists_of_bind
  obtain ⟨ready, hready, h⟩ := h.exists_of_bind
  obtain ⟨-, -, h⟩ := h.exists_of_bind
  obtain ⟨-, rfl⟩ := Prod.mk.inj (Run.gives_pure_iff.1 h)
  exact givesName_of_prepare hready

end Setup

/-! ## The name of an image -/

section Image

variable {data : Bytes} {plan : Plan} {request : BuildRequest} {b : BuiltImage}

theorem exists_label_of_rebuild {image : SpiImage}
    (himage : SpiImage.ofBytes? data = .ok (some image))
    (h : image.rebuild plan request = .ok b) :
    ∃ label, IsDateLabel label ∧ b.name = outputName request.profileName label := by
  obtain ⟨header, -, rfl⟩ := SpiImage.rebuild_eq_ok_iff.1 h
  refine ⟨_, ?_, rfl⟩
  cases hfirmware : image.firmware with
  | none => exact .inl rfl
  | some info => exact .inr ⟨_, _, info, SpiImage.firmware_eq himage ▸ hfirmware, rfl⟩

theorem exists_label_of_extract (h : extract? data plan request = some b) :
    ∃ label, IsDateLabel label ∧ b.name = outputName request.profileName label := by
  obtain ⟨r, hr, hb⟩ := List.exists_of_findSome?_eq_some h
  obtain ⟨chip, header, husable, rfl⟩ :=
    (attempt_image?_eq_some_iff (length_of_mem_capsuleScan hr).1).1 hb
  exact ⟨_, .inr ⟨r.2, capsuleDateOffset, _,
    FirmwareInfo.ofBytes?_eq_some_iff.2 ⟨chip, husable.find_chip, rfl⟩, rfl⟩, rfl⟩

/-- Both ways to build an image name it by the profile and a version. -/
theorem exists_label_of_buildOutput (h : buildOutput data plan request = .ok (some b)) :
    ∃ label, IsDateLabel label ∧ b.name = outputName request.profileName label := by
  unfold buildOutput at h
  split at h
  · rename_i image himage
    cases hrebuild : image.rebuild plan request with
    | error e =>
      rw [hrebuild] at h
      cases h
    | ok b' =>
      rw [hrebuild] at h
      obtain rfl := Option.some.inj (Except.ok.inj h)
      exact exists_label_of_rebuild himage hrebuild
  · exact exists_label_of_extract (Except.ok.inj h)

end Image

/-! ## The target -/

namespace Command

variable {files : Files} {s : Setup} {image : String}

theorem exists_name_of_runBuild (houtput : s.output = none) {d : Delivery}
    (h : (runBuild files s image).Gives d) :
    ∃ name label, s.GivesName files name ∧ IsDateLabel label ∧
      d.path = Path.join (Path.parent image) (outputName name label) := by
  obtain ⟨data, -, h⟩ := h.exists_of_bind
  obtain ⟨⟨plan, name⟩, hplan, h⟩ := h.exists_of_bind
  obtain ⟨-, -, h⟩ := h.exists_of_bind
  dsimp only at h
  split at h
  · exact absurd h (Run.not_gives_throw _)
  · exact absurd h (Run.not_gives_throw _)
  · rename_i built hbuilt
    obtain rfl := Run.gives_pure_iff.1 h
    obtain ⟨label, hlabel, hname⟩ := exists_label_of_buildOutput hbuilt
    refine ⟨name, label, Setup.givesName_of_plan hplan, hlabel, ?_⟩
    rw [buildTarget, houtput, Option.getD_none, hname]

/-- An image without an output path is named by a profile and a version. Its name has no blank and
no dash, and just the slashes of the profile's name: without any, the image is written in the
directory of the input. With one, it is written there if nothing but idle steps stands before its
last step, and a name that begins with a slash is a path of its own. -/
theorem path_of_runBuild (files : Files) (s : Setup) (image : String) :
    (∀ name label, IsDateLabel label →
      (∀ c ∈ (outputName name label).toList, isBlank c = false ∧ c ≠ '-') ∧
      ('/' ∈ (outputName name label).toList ↔ '/' ∈ name.toList)) ∧
    ∀ d, s.output = none → (runBuild files s image).Gives d →
      ∃ name label, s.GivesName files name ∧ IsDateLabel label ∧
        d.path = Path.join (Path.parent image) (outputName name label) ∧
        ('/' ∉ name.toList → Path.directory d.path = Path.directory image) ∧
        (Path.isAbsolute name = false →
          (Path.directory d.path = Path.directory image ↔
            Path.directory (outputName name label) = ".")) ∧
        (Path.isAbsolute name → d.path = outputName name label) := by
  refine ⟨fun name label hlabel => ⟨fun c hc => ?_, slash_mem_outputName_iff name hlabel⟩,
    fun d houtput hrun => ?_⟩
  · simpa [isSeparator] using isSeparator_of_mem_outputName name hlabel c hc
  · obtain ⟨name, label, hname, hlabel, hpath⟩ := exists_name_of_runBuild houtput hrun
    obtain ⟨s, hlast⟩ := reverse_outputName name label
    have hstart := isAbsolute_outputName name label
    have hbeside : Path.isAbsolute name = false → (Path.directory d.path = Path.directory image ↔
        Path.directory (outputName name label) = ".") := fun hrelative => by
      rw [hpath]
      exact Path.directory_join_parent_iff (hstart.trans hrelative) hlast (by decide) (by decide)
    refine ⟨name, label, hname, hlabel, hpath, fun hslash => ?_, hbeside, fun habsolute => ?_⟩
    · refine (hbeside ?_).2 (Path.directory_of_notMem hlast (by decide)
        (mt (slash_mem_outputName_iff name hlabel).1 hslash))
      exact decide_eq_false fun hhead => hslash (List.mem_of_mem_head? hhead)
    · exact hpath.trans (Path.join_of_isAbsolute _ (hstart.trans habsolute))

/-- An image with an empty body, and a document of no registers beside it. -/
def smallFiles : Files := fun path =>
  if path = "r.json" then .ok (encodeUtf8 "\x7b\"groups\": []\x7d")
  else .ok
    [0x00, 0x00, 0x01, 0x00, 0x10, 0x00, 0x33, 0x33, 0x30, 0x36, 0x41, 0x5F,
      0x52, 0x43, 0x46, 0x47, 0x9F, 0x35, 0x08, 0xAE, 0x84, 0x01, 0x00, 0x00,
      0x00, 0x00, 0x33, 0x33, 0x30, 0x36, 0x41, 0x5F, 0x46, 0x57, 0x00, 0x8D,
      0xEF, 0x02, 0xD2, 0xFF, 0xFF, 0xFF, 0xFF, 0xFF, 0xFF, 0xFF, 0xFF, 0xFF]

def smallSetup (profileName : String) : Setup :=
  ⟨some "r.json", none, ⟨[], []⟩, none, [], profileName, .omitted, none, false, none, false⟩

/-- The blank becomes an underscore, and the image lies beside the input. -/
theorem path_of_runBuild_spaced :
    ∃ d, (runBuild smallFiles (smallSetup "rev b") "in/a.bin").Gives d ∧
      d.path = "in/rev_b_UNKNOWN_SPI.bin" ∧ Path.directory d.path = Path.directory "in/a.bin" := by
  have hpath : ((runBuild smallFiles (smallSetup "rev b") "in/a.bin").run []).run.1.map
      Delivery.path = .ok "in/rev_b_UNKNOWN_SPI.bin" := by decide +kernel
  obtain ⟨d, hrun, hpath⟩ := Run.exists_gives_of_map [] hpath
  obtain ⟨name, label, hname, -, -, hbeside, -⟩ :=
    (path_of_runBuild smallFiles (smallSetup "rev b") "in/a.bin").2 d rfl hrun
  cases hname with
  | asked h => exact ⟨d, hrun, hpath, hbeside (by decide)⟩
  | own h => exact absurd h (by decide)
  | unnamed h => exact absurd h (by decide)

/-- The slash stays, and the image lies in a directory of its own. -/
theorem slash_leaves_directory :
    '/' ∈ (outputName "rev/b" FirmwareInfo.unknownDate).toList ∧
      ∃ d, (runBuild smallFiles (smallSetup "rev/b") "a.bin").Gives d ∧
        d.path = "rev/b_UNKNOWN_SPI.bin" ∧ Path.directory d.path ≠ Path.directory "a.bin" := by
  have hpath : ((runBuild smallFiles (smallSetup "rev/b") "a.bin").run []).run.1.map
      Delivery.path = .ok "rev/b_UNKNOWN_SPI.bin" := by decide +kernel
  obtain ⟨d, hrun, hpath⟩ := Run.exists_gives_of_map [] hpath
  refine ⟨by decide, d, hrun, hpath, ?_⟩
  rw [hpath]
  decide +kernel

end Command

end RegisterImage
