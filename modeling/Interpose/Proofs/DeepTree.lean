import Interpose.Loader.Resolve
import Interpose.Proofs.Walks

/-!
A tree with files that are out of sight, as their directory has a path longer than `maxPathBytes`. The
path of each of them stays as it is written, so there are as many for one file as there are ways to
write one.
-/

set_option autoImplicit false

namespace Interpose

namespace FileTree

def nest : Location → Directory → Directory
  | [], dir => dir
  | name :: rest, dir => [(name, .directory (nest rest dir))]

theorem descend_nest {root dir : Directory} {location : Location} {trail : Trail}
    (h : trail.here root = nest location dir) :
    ∃ below : Trail, Trail.descend root trail location = some below ∧ below.here root = dir ∧
      below.location = trail.location ++ location := by
  induction location generalizing trail with
  | nil => exact ⟨trail, rfl, h, (List.append_nil _).symm⟩
  | cons name location ih =>
    have hinner : (trail.here root).lookup name = some (.directory (nest location dir)) := by
      rw [h, nest, List.lookup_cons, beq_self_eq_true]
    obtain ⟨below, hbelow, hdir, hlocation⟩ :=
      ih (show Trail.here root ((name, nest location dir) :: trail) = nest location dir from rfl)
    refine ⟨below, ?_, hdir, ?_⟩
    · rw [Trail.descend, hinner]
      exact hbelow
    · rw [hlocation, Trail.location_cons, List.append_assoc, List.singleton_append]

def longName : String := .ofList (List.replicate 249 'd')

def deepDir : Location := List.replicate 16 longName

/-- Files in a directory whose path is too long to be looked at. The links on the way to it make short
paths lead there. -/
def deepTree (files : Directory) : FileTree :=
  ⟨("q", .link (pathOf deepDir)) :: ("r", .link (pathOf deepDir)) ::
    nest deepDir [("k", .link ⟨longName⟩), (longName, .directory files)], []⟩

theorem toList_longName : longName.toList = List.replicate 249 'd' := by
  unfold longName
  exact String.toList_ofList

theorem longName_ne {name : String} (h : name.toList.length < 3) : longName ≠ name := by
  intro heq
  rw [← heq, toList_longName, List.length_replicate] at h
  omega

theorem isName_longName : IsName longName := by
  refine ⟨longName_ne (by simp), longName_ne (by simp), longName_ne (by simp), fun h => ?_⟩
  rw [toList_longName] at h
  exact absurd (List.eq_of_mem_replicate h) (by decide)

theorem names_longName : names ⟨longName⟩ = [longName] := by
  rw [names, segments_of_not_mem isName_longName.whole, List.map_singleton, String.ofList_toList]

theorem isAbsolute_longName : (FilePath.mk longName).isAbsolute = false := by
  rw [FilePath.isAbsolute, String.startsWith_char_eq_head?, toList_longName]
  rfl

theorem isName_of_mem_deepDir {name : String} (h : name ∈ deepDir) : IsName name := by
  rw [deepDir] at h
  rw [List.eq_of_mem_replicate h]
  exact isName_longName

theorem deepTree_descend (files : Directory) :
    ∃ trail : Trail, Trail.descend (deepTree files).root [] deepDir = some trail ∧
      trail.here (deepTree files).root = [("k", .link ⟨longName⟩), (longName, .directory files)] ∧
      trail.location = deepDir := by
  have hfirst : (deepTree files).root.lookup longName = some (.directory
      (nest (List.replicate 15 longName)
        [("k", .link ⟨longName⟩), (longName, .directory files)])) := by
    rw [deepTree, List.lookup_cons, beq_false_of_ne (longName_ne (by simp)), List.lookup_cons,
      beq_false_of_ne (longName_ne (by simp)), deepDir, List.replicate_succ, nest,
      List.lookup_cons, beq_self_eq_true]
  obtain ⟨trail, htrail, hhere, hlocation⟩ := descend_nest
    (show Trail.here (deepTree files).root [(longName, nest (List.replicate 15 longName) _)] = _
      from rfl)
  refine ⟨trail, ?_, hhere, hlocation⟩
  rw [deepDir, List.replicate_succ, Trail.descend, Trail.here, hfirst]
  exact htrail

theorem deepTree_leads (files : Directory) :
    ∃ final : Trail, final.here (deepTree files).root = files ∧
      final.location = deepDir ++ [longName] ∧
      ∀ {link : String}, link = "q" ∨ link = "r" → ∀ {rest : List String} {place : Place},
        (deepTree files).Leads Trail.anywhere 38 final rest place →
          (deepTree files).Leads Trail.anywhere 40 [] (link :: "k" :: rest) place := by
  obtain ⟨trail, htrail, hhere, hlocation⟩ := deepTree_descend files
  refine ⟨(longName, files) :: trail, rfl, ?_, fun {link} hlink {rest place} hleads => ?_⟩
  · rw [Trail.location_cons, hlocation]
  have hlong : (deepTree files).Leads Trail.anywhere 38 trail (longName :: rest) place := by
    refine .down rfl (fun h => h.elim isName_longName.nonempty isName_longName.notCurrent)
      isName_longName.notParent ?_ hleads
    rw [hhere, List.lookup_cons, beq_false_of_ne (longName_ne (by simp)), List.lookup_cons,
      beq_self_eq_true]
  have hinner : (deepTree files).Leads Trail.anywhere 39 trail ("k" :: rest) place := by
    refine .link rfl (by decide) (by decide)
      (show _ = some (Entry.link ⟨longName⟩) by rw [hhere]; rfl) ?_
    rw [isAbsolute_longName, names_longName]
    exact hlong
  have houter : (deepTree files).Leads Trail.anywhere 39 []
      (names (pathOf deepDir) ++ "k" :: rest) place := by
    rw [names_pathOf (by simp [deepDir]) fun _ => isName_of_mem_deepDir]
    exact .stays rfl (.inl rfl) (hinner.along (fun _ => isName_of_mem_deepDir) htrail)
  have hfound : (deepTree files).root.lookup link = some (.link (pathOf deepDir)) := by
    rcases hlink with rfl | rfl <;> rfl
  refine .link rfl ?_ ?_ hfound ?_
  · rcases hlink with rfl | rfl <;> decide
  · rcases hlink with rfl | rfl <;> decide
  · rw [isAbsolute_pathOf]
    exact houter

/-- A file below the deep directory is there, and its path stays as it is written. -/
theorem deep_file {files : Directory} {path : FilePath} {below : Location} {content : Content}
    (hfits : fits path = true)
    (hplace : (deepTree files).placeOf Trail.anywhere path =
      some ⟨deepDir ++ [longName] ++ below, some (.file content)⟩) :
    (deepTree files).isFile path = true ∧ (deepTree files).canonical path = path ∧
      (deepTree files).read path = some content := by
  refine ⟨isFile_iff.mpr ⟨hfits, _, _, hplace⟩, canonical_deep hplace ?_, ?_⟩
  · rw [utf8ByteSize_pathOf (by simp), deepDir]
    have hlong : longName.utf8ByteSize = 249 := by decide +kernel
    simp only [List.map_append, List.map_replicate, List.sum_append, List.sum_replicate_nat, hlong,
      List.map_cons, List.map_nil, List.sum_cons, List.sum_nil, maxPathBytes]
    omega
  · rw [FileTree.read, entryAt, placeAt, if_pos hfits, hplace]
    rfl

/-- A path through the links to a file of that name, with nothing but empty parts and dots
besides. -/
structure ThroughLinks (name : String) (path : FilePath) : Prop where
  absolute : path.isAbsolute = true
  fits : fits path = true
  spelled : ∃ before link between, (∀ part ∈ before, part = "" ∨ part = ".") ∧
    (link = "q" ∨ link = "r") ∧ (∀ part ∈ between, part = "" ∨ part = ".") ∧
      names path = before ++ link :: "k" :: (between ++ [name])

section ThroughLinks

variable {files : Directory} {name : String} {content : Content} {path : FilePath}

theorem ThroughLinks.placeOf (h : ThroughLinks name path) (hname : IsName name)
    (hfile : files.lookup name = some (.file content)) :
    (deepTree files).placeOf Trail.anywhere path =
      some ⟨deepDir ++ [longName] ++ [name], some (.file content)⟩ := by
  obtain ⟨before, link, between, hbefore, hlink, hbetween, hnames⟩ := h.spelled
  obtain ⟨final, hfiles, hlocation, hleads⟩ := deepTree_leads files
  rw [placeOf_absolute h.absolute, hnames, ← hlocation]
  refine .stayed hbefore (hleads hlink (.stayed hbetween (.last rfl ?_ hname.notParent ?_ ?_)))
  · exact fun hempty => hempty.elim hname.nonempty hname.notCurrent
  · rw [hfiles, hfile]
  · exact fun entry hentry => ⟨content, (Option.some.inj hentry).symm⟩

theorem ThroughLinks.file (h : ThroughLinks name path) (hname : IsName name)
    (hfile : files.lookup name = some (.file content)) :
    (deepTree files).isFile path = true ∧ (deepTree files).canonical path = path ∧
      (deepTree files).read path = some content :=
  deep_file h.fits (h.placeOf hname hfile)

end ThroughLinks

theorem moduleFile_unfit {tree : FileTree} {path : FilePath}
    (h : maxPathBytes < path.text.utf8ByteSize) (hextension : path.addExtension? "svs" = none) :
    tree.moduleFile path = none := by
  have hentry : tree.entryAt path = none := by
    rw [entryAt, placeAt, fits, decide_eq_false (Nat.not_le.mpr h)]
    rfl
  rw [moduleFile, isFile, hentry, hextension, fileInside, isDir, hentry]
  rfl

/-- An absolute path with so many slashes more than it needs. -/
def slashed (more : Nat) (rest : String) : FilePath :=
  ⟨.ofList (List.replicate (more + 1) '/') ++ rest⟩

section Slashed

variable (more : Nat) (rest : String)

theorem toList_slashed :
    (slashed more rest).text.toList = List.replicate (more + 1) '/' ++ rest.toList := by
  rw [slashed, String.toList_append, String.toList_ofList]

theorem utf8ByteSize_slashed :
    (slashed more rest).text.utf8ByteSize = more + 1 + rest.utf8ByteSize := by
  have hslashes : ∀ n, (String.ofList (List.replicate n '/')).utf8ByteSize = n := by
    intro n
    induction n with
    | zero => rfl
    | succ n ih =>
      rw [List.replicate_succ, String.ofList_cons, String.utf8ByteSize_append, ih,
        String.utf8ByteSize_singleton, Nat.add_comm]
      rfl
  rw [slashed, String.utf8ByteSize_append, hslashes]

theorem isAbsolute_slashed : (slashed more rest).isAbsolute = true := by
  rw [FilePath.isAbsolute, String.startsWith_char_eq_head?, toList_slashed, List.replicate_succ]
  rfl

theorem segments_slashed : segments (slashed more rest).text.toList =
    List.replicate (more + 1) [] ++ segments rest.toList := by
  rw [toList_slashed]
  induction more + 1 with
  | zero => rfl
  | succ n ih => rw [List.replicate_succ, List.cons_append, segments, if_pos rfl, ih]; rfl

theorem names_slashed :
    names (slashed more rest) = List.replicate (more + 1) "" ++ names ⟨rest⟩ := by
  rw [names, segments_slashed, List.map_append, List.map_replicate]
  rfl

theorem parts_slashed : (slashed more rest).parts =
    ⟨.root, 1⟩ :: FilePath.partsOf (segments rest.toList) (more + 1) := by
  have hempty : ∀ n offset, FilePath.partsOf (List.replicate n [] ++ segments rest.toList) offset =
      FilePath.partsOf (segments rest.toList) (offset + n) := by
    intro n
    induction n with
    | zero => intro offset; rfl
    | succ n ih =>
      intro offset
      rw [List.replicate_succ, List.cons_append, FilePath.partsOf, if_pos (.inl rfl), ih,
        List.length_nil, Nat.add_assoc, Nat.add_zero, Nat.add_comm 1]
  obtain ⟨first, others, hsegments⟩ := List.exists_cons_of_ne_nil
    (List.append_ne_nil_of_right_ne_nil (List.replicate more []) (segments_ne_nil rest.toList))
  rw [FilePath.parts, segments_slashed, List.replicate_succ, List.cons_append, Nat.add_comm more,
    ← hempty, hsegments]

theorem take_slashed {rest front : String} {n : Nat} (h : rest.toList.take n = front.toList) :
    (slashed more rest).take (more + 1 + n) = slashed more front := by
  have hslashes : (List.replicate (more + 1) '/').length ≤ more + 1 + n := by
    rw [List.length_replicate]
    omega
  rw [FilePath.take, toList_slashed, List.take_append, List.take_of_length_le hslashes,
    List.length_replicate, Nat.add_sub_cancel_left, h, String.ofList_append, String.ofList_toList]
  rfl

theorem same_slashed (other : Nat) : (slashed more rest).same (slashed other rest) = true := by
  rw [FilePath.same, beq_iff_eq, FilePath.components, FilePath.components, parts_slashed,
    parts_slashed]
  exact congrArg (List.cons _) (FilePath.component_partsOf_anywhere ..)

theorem joinName_slashed {rest name : String} {last : Char}
    (hlast : rest.toList.getLast? = some last) (hslash : last ≠ '/')
    (hname : (FilePath.mk name).isAbsolute = false) :
    (slashed more rest).joinName name = slashed more (rest ++ "/" ++ name) := by
  have hends : ¬ ((slashed more rest).text = "" ∨ (slashed more rest).text.endsWith '/') := by
    rw [String.endsWith_char_eq_getLast?, toList_slashed]
    rintro (hempty | hends)
    · have hbytes := utf8ByteSize_slashed more rest
      have hzero : String.utf8ByteSize "" = 0 := rfl
      rw [hempty] at hbytes
      omega
    · rw [List.getLast?_append, hlast, Option.some_or] at hends
      exact hslash (Option.some.inj (eq_of_beq hends))
  rw [FilePath.joinName, FilePath.join, if_neg (by rw [hname]; decide), if_neg hends]
  exact congrArg FilePath.mk (by simp only [slashed, String.append_assoc])

end Slashed

theorem throughLinks_slashed {more : Nat} {rest name link : String} {between : List String}
    (hnames : names ⟨rest⟩ = link :: "k" :: (between ++ [name])) (hlink : link = "q" ∨ link = "r")
    (hbetween : ∀ part ∈ between, part = "" ∨ part = ".")
    (hfits : more + 1 + rest.utf8ByteSize ≤ maxPathBytes) :
    ThroughLinks name (slashed more rest) := by
  refine ⟨isAbsolute_slashed more rest, ?_, List.replicate (more + 1) "", link, between, ?_, hlink,
    hbetween, ?_⟩
  · exact decide_eq_true (utf8ByteSize_slashed more rest ▸ hfits)
  · exact fun part hpart => .inl (List.eq_of_mem_replicate hpart)
  · rw [names_slashed, hnames]

end FileTree

end Interpose
