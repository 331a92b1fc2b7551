import Cutscene.Proofs.Acts
import Cutscene.Proofs.LookingUp

/-! Where a bare name is looked for. The places are the caller's folder, the folder of the map, the
common folder and the name itself, and a place that is the same as the one just before it is left
out. Only a script in the common folder that calls another one on a map comes to one place twice,
with the folder of the map in between. -/

namespace Cutscene

namespace ScriptPath

section Places

variable {target name last folder folder' map : String} {current : Option String}

/-- The folder that a script is in. -/
def folder? (current : Option String) : Option String :=
  (current.bind fun file => beforeLast? '/' file.toList).map String.ofList

def below (folder name : String) : String := folder ++ "/" ++ name

def beside? (name : String) (current : Option String) : Option String :=
  (folder? current).map (below · name)

def onMap (name map : String) : List String :=
  match mapName map with
  | [] => []
  | m => [below ("script/map/" ++ String.ofList m) name]

/-- The places that do not depend on the caller. -/
def elsewhere (name map : String) : List String :=
  onMap name map ++ [below "script/common" name, name]

/-- The caller is a common script and the map has a folder. -/
def Doubles (current : Option String) (map : String) : Prop :=
  folder? current = some "script/common" ∧ mapName map ≠ []

instance (current : Option String) (map : String) : Decidable (Doubles current map) :=
  inferInstanceAs (Decidable (_ ∧ _))

theorem candidates_eq (h : ¬ NamesFolder target) : candidates target current map =
    dropRepeats ((beside? (normalize target) current).toList ++
      elsewhere (normalize target) map) := by
  have hslash : ¬ (normalize target).toList.contains '/' = true := by
    rwa [List.contains_iff_mem, ← namesFolder_iff]
  have hcommon : below "script/common" (normalize target) =
      "script/common/" ++ normalize target := rfl
  rw [candidates, if_neg hslash, beside?, folder?, elsewhere, hcommon, onMap, ← List.append_assoc]
  generalize (current.bind fun file => beforeLast? '/' file.toList) = folder
  cases mapName map with
  | nil => cases folder <;> rfl
  | cons c m => cases folder <;> rfl

theorem below_toList (folder name : String) :
    (below folder name).toList = folder.toList ++ '/' :: name.toList := by
  rw [below, String.toList_append, String.toList_append, List.append_assoc]
  rfl

theorem below_inj : below folder name = below folder' name ↔ folder = folder' := by
  rw [below, below, String.append_left_inj, String.append_left_inj]

theorem below_ne (h : '/' ∉ last.toList) : below folder name ≠ last := by
  rintro rfl
  rw [below_toList] at h
  exact h (List.mem_append_right _ List.mem_cons_self)

theorem map_folder_ne (m : List Char) : "script/map/" ++ String.ofList m ≠ "script/common" := by
  intro h
  have hletters := congrArg String.toList h
  rw [String.toList_append, String.toList_ofList] at hletters
  cases hletters

theorem onMap_eq (name map : String) : onMap name map =
    if mapName map = [] then []
    else [below ("script/map/" ++ String.ofList (mapName map)) name] := by
  unfold onMap
  cases mapName map with
  | nil => rfl
  | cons c m => rfl

/-- The places that lead through a folder are two places, and a name without one is a third. -/
theorem nodup_elsewhere (hlast : '/' ∉ last.toList) :
    (onMap name map ++ [below "script/common" name, last]).Nodup := by
  rw [onMap_eq]
  split
  · simp [below_ne hlast]
  · simp [below_ne hlast, below_inj, map_folder_ne]

theorem mem_elsewhere_iff (hlast : '/' ∉ last.toList) :
    below folder name ∈ onMap name map ++ [below "script/common" name, last] ↔
      mapName map ≠ [] ∧ folder = "script/map/" ++ String.ofList (mapName map) ∨
        folder = "script/common" := by
  rw [onMap_eq]
  split
  · next hmap => simp [below_ne hlast, below_inj, hmap]
  · next hmap => simp [below_ne hlast, below_inj, hmap]

theorem head?_elsewhere_iff : (elsewhere name map).head? = some (below folder name) ↔
    mapName map ≠ [] ∧ folder = "script/map/" ++ String.ofList (mapName map) ∨
      mapName map = [] ∧ folder = "script/common" := by
  rw [elsewhere, onMap_eq]
  split
  · next hmap => simp [below_inj, hmap, eq_comm]
  · next hmap => simp [below_inj, hmap, eq_comm]

/-- The place beside the caller is one of the others, but not the next one. -/
theorem doubles_iff (hlast : '/' ∉ last.toList) : Doubles current map ↔
    ∃ b ∈ beside? name current, (elsewhere name map).head? ≠ some b ∧
      b ∈ onMap name map ++ [below "script/common" name, last] := by
  unfold Doubles beside?
  cases folder? current with
  | none => simp
  | some folder =>
    simp only [Option.map_some, Option.mem_some_iff, exists_eq_left', ne_eq, head?_elsewhere_iff,
      mem_elsewhere_iff hlast, Option.some.injEq]
    constructor
    · rintro ⟨rfl, hmap⟩
      simp [hmap, (map_folder_ne _).symm]
    · rintro ⟨hhead, ⟨hmap, hfolder⟩ | hcommon⟩
      · exact absurd (Or.inl ⟨hmap, hfolder⟩) hhead
      · exact ⟨hcommon, fun hmap => hhead (Or.inr ⟨hmap, hcommon⟩)⟩

end Places

section Repeats

variable {b : String} {first : Option String} {rest paths : List String}

theorem dropRepeats_of_nodup (h : paths.Nodup) : dropRepeats paths = paths := by
  fun_induction dropRepeats paths with
  | case1 => rfl
  | case2 q => rfl
  | case3 q rest ih => exact absurd List.mem_cons_self (List.nodup_cons.mp h).1
  | case4 q r rest hne ih => rw [ih (List.nodup_cons.mp h).2]

/-- Of the places behind the first one, only the next is compared with it. -/
theorem dropRepeats_cons (h : rest.Nodup) :
    dropRepeats (b :: rest) = if rest.head? = some b then rest else b :: rest := by
  cases rest with
  | nil => rfl
  | cons q rest =>
    rw [dropRepeats, dropRepeats_of_nodup h]
    by_cases hb : b = q
    · simp [hb]
    · simp [hb, Ne.symm hb]

theorem filter_ne_of_not_mem (h : b ∉ paths) : paths.filter (fun q => !q == b) = paths := by
  refine List.filter_eq_self.mpr fun q hq => ?_
  have hne : q ≠ b := fun heq => h (heq ▸ hq)
  simpa using hne

theorem eraseDups_of_nodup (h : paths.Nodup) : paths.eraseDups = paths := by
  induction paths with
  | nil => rfl
  | cons p paths ih =>
    obtain ⟨hp, hpaths⟩ := List.nodup_cons.mp h
    rw [List.eraseDups_cons, filter_ne_of_not_mem hp, ih hpaths]

theorem nodup_map_dropRepeats_iff (f : String → String) (hnodup : rest.Nodup)
    (hmap : (rest.map f).Nodup) : ((dropRepeats (first.toList ++ rest)).map f).Nodup ↔
      ¬ ∃ b ∈ first, rest.head? ≠ some b ∧ f b ∈ rest.map f := by
  cases first with
  | none => simpa [dropRepeats_of_nodup hnodup] using hmap
  | some b =>
    rw [Option.toList_some, List.singleton_append, dropRepeats_cons hnodup]
    by_cases hhead : rest.head? = some b
    · simp [hhead, hmap]
    · simp only [hhead, if_false, List.map_cons, List.nodup_cons, hmap, and_true,
        Option.mem_some_iff, exists_eq_left', ne_eq, not_false_eq_true, true_and]

theorem nodup_dropRepeats_iff (hnodup : rest.Nodup) :
    (dropRepeats (first.toList ++ rest)).Nodup ↔
      ¬ ∃ b ∈ first, rest.head? ≠ some b ∧ b ∈ rest := by
  have hmap : (rest.map id).Nodup := by rwa [List.map_id]
  have hplain : ((dropRepeats (first.toList ++ rest)).map id).Nodup ↔ _ :=
    nodup_map_dropRepeats_iff id hnodup hmap
  simpa only [List.map_id, id_eq] using hplain

theorem dropRepeats_eq_eraseDups_iff (hnodup : rest.Nodup) :
    dropRepeats (first.toList ++ rest) = (first.toList ++ rest).eraseDups ↔
      ¬ ∃ b ∈ first, rest.head? ≠ some b ∧ b ∈ rest := by
  cases first with
  | none => simp [dropRepeats_of_nodup hnodup, eraseDups_of_nodup hnodup]
  | some b =>
    simp only [Option.toList_some, List.singleton_append, dropRepeats_cons hnodup,
      List.eraseDups_cons, Option.mem_some_iff, exists_eq_left', ne_eq, not_and]
    by_cases hhead : rest.head? = some b
    · obtain ⟨rest', rfl⟩ := List.head?_eq_some_iff.mp hhead
      obtain ⟨hb, hrest⟩ := List.nodup_cons.mp hnodup
      have hothers : (b :: rest').filter (fun q => !q == b) = rest' := by
        rw [List.filter_cons_of_neg (by simp), filter_ne_of_not_mem hb]
      simp [hothers, eraseDups_of_nodup hrest]
    · simp only [hhead, if_false, not_false_eq_true, true_implies, List.cons.injEq, true_and]
      constructor
      · -- a place that is met again further behind would have been kept there
        intro hsame hb
        have hagain : b ∈ (rest.filter fun q => !q == b).eraseDups := hsame ▸ hb
        simp at hagain
      · intro hb
        rw [filter_ne_of_not_mem hb, eraseDups_of_nodup hnodup]

end Repeats

section Keys

variable {name map root : String} {current : Option String} {folder q : List Char}

theorem exists_of_beforeLast? {c : Char} {s t : List Char} (h : beforeLast? c s = some t) :
    ∃ rest, s = t ++ c :: rest := by
  induction s generalizing t with
  | nil => cases h
  | cons x s ih =>
    rw [beforeLast?] at h
    split at h
    · next t' ht' =>
      obtain rfl := Option.some.inj h
      obtain ⟨rest, rfl⟩ := ih ht'
      exact ⟨rest, rfl⟩
    · split at h
      · next hx =>
        obtain rfl := Option.some.inj h
        exact ⟨s, by rw [hx]; rfl⟩
      · cases h

/-- Below a relative folder in small letters and with forward slashes, a normal form stays one. -/
theorem IsKey.under (hsmall : ∀ c ∈ folder, Text.IsSmall c)
    (hforward : '\\' ∉ folder) (hroot : folder.head? ≠ some '/') (hsome : folder ≠ [])
    (hq : IsKey q) : IsKey (folder ++ '/' :: q) where
  small c hc := by
    rcases List.mem_append.mp hc with hfolder | hrest
    · exact hsmall c hfolder
    · rcases List.mem_cons.mp hrest with rfl | hc
      · exact isSign_slash.lowerChar_eq
      · exact hq.small c hc
  forward := by
    have hslash : '\\' ≠ '/' := by decide
    simp [hforward, hq.forward]
  relative := by rwa [List.head?_append_of_ne_nil _ hsome]
  last c hc := by
    rw [List.getLast?_append, List.getLast?_cons, Option.some_or] at hc
    obtain rfl := Option.some.inj hc
    cases hlast : q.getLast? with
    | none => rfl
    | some d => exact hq.last d hlast

theorem isLoose_cons_cons (c d : Char) (s : List Char) :
    isLoose (c :: d :: s) = (decide (c = '.' ∧ d = '/') || Text.isBlank c) := by
  unfold isLoose
  split
  · next heq =>
    cases heq
    rfl
  · next hdots heq =>
    cases heq
    have hne : ¬ (c = '.' ∧ d = '/') := by
      rintro ⟨rfl, rfl⟩
      exact hdots s rfl rfl
    rw [decide_eq_false hne, Bool.false_or]
  · next heq => cases heq

/-- Whether a path is loose is seen before what follows its first slash. -/
theorem isLoose_append_slash (h : folder ≠ []) (q q' : List Char) :
    isLoose (folder ++ '/' :: q) = isLoose (folder ++ '/' :: q') := by
  match folder, h with
  | [c], _ => exact (isLoose_cons_cons c '/' q).trans (isLoose_cons_cons c '/' q').symm
  | c :: d :: folder, _ => exact (isLoose_cons_cons c d _).trans (isLoose_cons_cons c d _).symm

/-- Beside a script that is in normal form there are only places in normal form. -/
theorem normalize_of_mem_beside? {b : String} (hname : IsKey name.toList)
    (hfile : ∀ file ∈ current, normalize file = file) (hb : b ∈ beside? name current) :
    normalize b = b := by
  obtain ⟨folder', hfolder, rfl⟩ := Option.map_eq_some_iff.mp hb
  obtain ⟨folder, hbefore, rfl⟩ := Option.map_eq_some_iff.mp hfolder
  obtain ⟨file, hcurrent, hbefore⟩ := Option.bind_eq_some_iff.mp hbefore
  obtain ⟨rest, hrest⟩ := exists_of_beforeLast? hbefore
  have hown := hfile file hcurrent
  have hkey : IsKey (folder ++ '/' :: rest) := by
    rw [← hrest, ← hown]
    exact isKey_normalize file
  have hsome : folder ≠ [] := by
    rintro rfl
    exact hkey.relative rfl
  have hroot : folder.head? ≠ some '/' := by
    have hrelative := hkey.relative
    rwa [List.head?_append_of_ne_nil _ hsome] at hrelative
  have htight : isLoose (folder ++ '/' :: rest) = false := by
    rw [← hrest]
    exact (normalize_of_key (hrest ▸ hkey)).mp hown
  have hbelow : (below (String.ofList folder) name).toList =
      folder ++ '/' :: name.toList := by
    rw [below_toList, String.toList_ofList]
  have hbkey : IsKey (folder ++ '/' :: name.toList) :=
    .under (fun c hc => hkey.small c (List.mem_append_left _ hc))
      (fun h => hkey.forward (List.mem_append_left _ h)) hroot hsome hname
  rw [normalize_of_key (hbelow ▸ hbkey), hbelow, isLoose_append_slash hsome _ rest, htight]

theorem mem_normalizeChars_of_mem_mapName {c : Char} (hc : c ∈ mapName map) :
    c ∈ normalizeChars map.toList := by
  have hlast := (List.takeWhile_prefix _).subset hc
  rw [afterLast, List.mem_reverse] at hlast
  exact List.mem_reverse.mp ((List.takeWhile_prefix _).subset hlast)

theorem normalize_below (hhead : root.toList.head? = some 's')
    (hsmall : ∀ c ∈ root.toList, Text.IsSmall c) (hforward : '\\' ∉ root.toList)
    (hname : IsKey name.toList) : normalize (below root name) = below root name := by
  obtain ⟨rest, hroot⟩ := List.head?_eq_some_iff.mp hhead
  have hkey : IsKey (root.toList ++ '/' :: name.toList) := by
    refine .under hsmall hforward ?_ ?_ hname
    · rw [hhead]
      decide
    · rw [hroot]
      exact List.cons_ne_nil _ _
  rw [← below_toList] at hkey
  rw [normalize_of_key hkey, below_toList, hroot]
  rfl

theorem normalize_common (hname : IsKey name.toList) :
    normalize (below "script/common" name) = below "script/common" name :=
  normalize_below (by decide) (Text.isSmall_of_ascii (by decide)) (by decide) hname

theorem map_normalize_onMap (hname : IsKey name.toList) :
    (onMap name map).map normalize = onMap name map := by
  have hkey := isKey_normalizeChars map.toList
  have hfolder : ("script/map/" ++ String.ofList (mapName map)).toList =
      "script/map/".toList ++ mapName map := by
    rw [String.toList_append, String.toList_ofList (l := mapName map)]
  have hscript : ∀ c ∈ "script/map/".toList, Text.IsSmall c := Text.isSmall_of_ascii (by decide)
  have hsmall : ∀ c ∈ mapName map, Text.IsSmall c := fun c hc =>
    hkey.small c (mem_normalizeChars_of_mem_mapName hc)
  have hforward : '\\' ∉ mapName map := fun hc =>
    hkey.forward (mem_normalizeChars_of_mem_mapName hc)
  rw [onMap_eq]
  split
  · rfl
  · rw [List.map_singleton, normalize_below ?_ ?_ ?_ hname]
    · rw [hfolder]
      rfl
    · rw [hfolder]
      exact List.forall_mem_append.mpr ⟨hscript, hsmall⟩
    · rw [hfolder, List.mem_append, not_or]
      exact ⟨by decide, hforward⟩

theorem map_normalize_elsewhere (hname : IsKey name.toList) :
    (elsewhere name map).map normalize =
      onMap name map ++ [below "script/common" name, normalize name] := by
  rw [elsewhere, List.map_append, map_normalize_onMap hname, List.map_cons,
    normalize_common hname, List.map_singleton]

/-- A name without a slash gets none when it is normalized again. -/
theorem slash_not_mem_normalize (hname : IsKey name.toList) (hslash : '/' ∉ name.toList) :
    '/' ∉ (normalize name).toList := by
  rw [normalize_toList, hname.normalizeChars_eq]
  have hsuffix : (dropDots (Text.trimStart name.toList)).dropWhile (· = '/') <:+ name.toList :=
    ((List.dropWhile_suffix _).trans (dropDots_suffix _)).trans (List.dropWhile_suffix _)
  exact fun h => hslash (hsuffix.subset h)

/-- The place beside the caller has the normal form of another one, but is not the next one. -/
def AsksTwice (name : String) (current : Option String) (map : String) : Prop :=
  ∃ b ∈ beside? name current, (elsewhere name map).head? ≠ some b ∧
    normalize b ∈ (elsewhere name map).map normalize

theorem asksTwice_iff (hname : IsKey name.toList) (hslash : '/' ∉ name.toList)
    (hfile : ∀ file ∈ current, normalize file = file) :
    AsksTwice name current map ↔ Doubles current map := by
  rw [doubles_iff (slash_not_mem_normalize hname hslash), AsksTwice, map_normalize_elsewhere hname]
  refine exists_congr fun b => and_congr_right fun hb => ?_
  rw [normalize_of_mem_beside? hname hfile hb]

end Keys

end ScriptPath

open ScriptPath

/-- The places for a bare name are the caller's folder, the folder of the map, the common folder and
the name itself, without repetitions unless a common script calls on a map. A search among them asks
for no path twice if the place beside the caller has a normal form of its own; that of a script in
normal form has, under the same condition. -/
theorem bare_target_candidates (target : String) (current : Option String) (map : String)
    (hbare : ¬ NamesFolder target) :
    let name := normalize target
    let paths := candidates target current map
    (paths = ((beside? name current).toList ++ elsewhere name map).eraseDups ↔
        ¬ Doubles current map) ∧
      (paths.Nodup ↔ ¬ Doubles current map) ∧
      (∀ (c c' : Cache) (f : Fault), c.loadFirst paths = (c', .error f) →
        ∃ asked, c'.reads.toList = c.reads.toList ++ asked ∧
          (¬ AsksTwice name current map → asked.Nodup) ∧
          (Cache.isNotFound f = true → asked.Nodup → ¬ AsksTwice name current map)) ∧
      ((∀ file ∈ current, normalize file = file) →
        (AsksTwice name current map ↔ Doubles current map)) := by
  have hname := isKey_normalize target
  have hslash : '/' ∉ (normalize target).toList := fun h => hbare (namesFolder_iff.mpr h)
  have hnodup : (elsewhere (normalize target) map).Nodup := nodup_elsewhere hslash
  have hmap : ((elsewhere (normalize target) map).map normalize).Nodup := by
    rw [map_normalize_elsewhere hname]
    exact nodup_elsewhere (slash_not_mem_normalize hname hslash)
  intro name paths
  have hpaths : paths = dropRepeats ((beside? name current).toList ++ elsewhere name map) :=
    candidates_eq hbare
  have hasked : (paths.map normalize).Nodup ↔ ¬ AsksTwice name current map := by
    rw [hpaths, nodup_map_dropRepeats_iff normalize hnodup hmap, AsksTwice]
  refine ⟨?_, ?_, fun c c' f hfail => ?_, asksTwice_iff hname hslash⟩
  · rw [hpaths, dropRepeats_eq_eraseDups_iff hnodup, doubles_iff hslash]
    rfl
  · rw [hpaths, nodup_dropRepeats_iff hnodup, doubles_iff hslash]
    rfl
  · obtain ⟨asked, hasks, hprefix, hall⟩ := Cache.loadFirst_asks hfail
    refine ⟨asked, hasks.reads, fun honce => (hasked.mpr honce).sublist hprefix.sublist, ?_⟩
    intro hnot hdistinct
    rw [hall hnot] at hdistinct
    exact hasked.mp hdistinct

namespace Rehearsal

def bareCache : Cache := { read := Shelf.read [] }

/-- A note that is nowhere is sought in four places, each of them once. -/
theorem note_sought_once : ¬ NamesFolder "Note" ∧
    candidates "Note" (some "cellar/main") "map/Cellar.map" =
      ["cellar/note", "script/map/cellar/note", "script/common/note", "note"] ∧
    (candidates "Note" (some "cellar/main") "map/Cellar.map").Nodup ∧
    ∃ c' f, bareCache.loadFirst (candidates "Note" (some "cellar/main") "map/Cellar.map") =
      (c', .error f) ∧ c'.reads.toList.Nodup := by
  have hbare : ¬ NamesFolder "Note" := by decide +kernel
  have hsingle : ¬ Doubles (some "cellar/main") "map/Cellar.map" := by decide +kernel
  have hfile : ∀ file ∈ some "cellar/main", normalize file = file := by
    rintro file ⟨⟩
    decide +kernel
  obtain ⟨-, hnodup, hasks, htwice⟩ :=
    bare_target_candidates "Note" (some "cellar/main") "map/Cellar.map" hbare
  obtain ⟨f, hfail⟩ : ∃ f, (bareCache.loadFirst
      (candidates "Note" (some "cellar/main") "map/Cellar.map")).2 = .error f :=
    exists_error (by decide +kernel)
  obtain ⟨asked, hreads, honce, -⟩ := hasks bareCache _ f (Prod.ext rfl hfail)
  refine ⟨hbare, by decide +kernel, hnodup.mpr hsingle, _, f, Prod.ext rfl hfail, ?_⟩
  rw [hreads]
  exact honce fun h => hsingle ((htwice hfile).mp h)

/-- A script in the common folder calls another one of the same folder on a map. -/
theorem common_sought_twice :
    candidates "a.txt" (some "script/common/main.txt") "map/village.map" =
      ["script/common/a.txt", "script/map/village/a.txt", "script/common/a.txt", "a.txt"] ∧
    ¬ (candidates "a.txt" (some "script/common/main.txt") "map/village.map").Nodup := by
  decide +kernel

end Rehearsal

end Cutscene
