import SetecWizard.Core.DecompressZip
import SetecWizard.Imaging.Truncation

/-! Where the entries of a zip archive are put. Their names are joined to the output
directory as they are, so an entry stays inside as long as its name resolves inside, or
nothing can be created where it leads.
-/
namespace SetecWizard.Core.Decompressor
open SetecWizard.Library

section

variable (host : ZipHost)

/-- The directories a path would need: the first that is missing can be created. -/
def Creates (world : ZipWorld) (place : Place) : Prop :=
  ∃ q, place.leading.find? (fun q => !exists_ host world q) = some q ∧ host.creatable q = true

theorem exists_created {world : ZipWorld} {q : Place} (more : List Place)
    (found : exists_ host world q = true) :
    exists_ host { world with created := world.created ++ more } q = true := by
  unfold exists_ at found ⊢
  rcases Bool.or_eq_true_iff.mp found with before | made
  · rw [before,Bool.true_or]
  · have member := List.contains_iff_mem.mp made
    have still : (world.created ++ more).contains q = true :=
      List.contains_iff_mem.mpr (List.mem_append_left _ member)
    rw [still,Bool.or_true]

/-- What making directories adds: some of the missing ones, and nothing else changes. -/
structure Added (world : ZipWorld) (places : List Place) (made : Bool × ZipWorld) (added : List Place) : Prop where
  after : made.2 = { world with created := world.created ++ added }
  missing : ∀ q ∈ added, q ∈ places ∧ exists_ host world q = false
  creates : added ≠ [] ↔
    ∃ q, places.find? (fun q => !exists_ host world q) = some q ∧ host.creatable q = true
  complete : made.1 = true →
    ∀ q ∈ places, exists_ host { world with created := world.created ++ added } q = true

theorem makeDirectories_adds (world : ZipWorld) (places : List Place) :
    ∃ added, Added host world places (makeDirectories host world places) added := by
  induction places generalizing world with
  | nil => exact ⟨[],by simp [makeDirectories],by simp,by simp,by simp⟩
  | cons place rest ih =>
    simp only [makeDirectories]
    by_cases present : exists_ host world place = true
    · rw [if_pos present]
      obtain ⟨added,adds⟩ := ih world
      refine ⟨added,adds.after,?_,?_,?_⟩
      · intro q member
        exact ⟨List.mem_cons_of_mem _ (adds.missing q member).1,(adds.missing q member).2⟩
      · rw [List.find?_cons_of_neg (by simp [present])]
        exact adds.creates
      · intro made q member
        rcases List.mem_cons.mp member with rfl | later
        · exact exists_created host added present
        · exact adds.complete made q later
    · rw [if_neg present]
      have absent : exists_ host world place = false := Bool.eq_false_of_not_eq_true present
      have found : (place :: rest).find? (fun q => !exists_ host world q) = some place := by
        rw [List.find?_cons_of_pos (by simp [absent])]
      by_cases creatable : host.creatable place = true
      · rw [if_pos creatable]
        obtain ⟨added,adds⟩ := ih { world with created := world.created ++ [place] }
        refine ⟨place :: added,?_,?_,?_,?_⟩
        · rw [adds.after]
          simp
        · intro q member
          rcases List.mem_cons.mp member with rfl | later
          · exact ⟨List.mem_cons_self,absent⟩
          · obtain ⟨among,missing⟩ := adds.missing q later
            refine ⟨List.mem_cons_of_mem _ among,Bool.eq_false_of_not_eq_true ?_⟩
            intro before
            rw [exists_created host [place] before] at missing
            cases missing
        · exact iff_of_true (List.cons_ne_nil _ _) ⟨place,found,creatable⟩
        · intro made q member
          have total : world.created ++ place :: added = (world.created ++ [place]) ++ added := by simp
          rw [total]
          rcases List.mem_cons.mp member with rfl | later
          · have here : exists_ host { world with created := world.created ++ [q] } q = true := by
              simp [exists_]
            exact exists_created host added here
          · exact adds.complete made q later
      · rw [if_neg creatable]
        refine ⟨[],by simp,by simp,?_,by simp⟩
        refine iff_of_false (fun not => not rfl) ?_
        rintro ⟨q,first,can⟩
        rw [found] at first
        cases first
        exact creatable can

def Ready (world : ZipWorld) (base : Place) : Prop := ∀ q ∈ base.leading, exists_ host world q = true

instance (world : ZipWorld) (base : Place) : Decidable (Ready host world base) :=
  inferInstanceAs (Decidable (∀ q ∈ base.leading, _))

theorem mkpath_inside_iff {world : ZipWorld} {base place : Place} (ready : Ready host world base)
    {added : List Place} {made : Bool × ZipWorld} (adds : Added host world place.leading made added) :
    (∀ q ∈ added, Place.Within base q) ↔ Place.Within base place ∨ ¬ Creates host world place := by
  constructor
  · intro inside
    by_contra outside
    obtain ⟨apart,creates⟩ := not_or.mp outside
    obtain ⟨q,member⟩ := List.exists_mem_of_ne_nil _ (adds.creates.mpr (not_not.mp creates))
    exact Place.leading_outside apart (adds.missing q member).1 (inside q member)
  · rintro (within_ | idle) q member
    · obtain ⟨among,missing⟩ := adds.missing q member
      rcases Place.leading_within within_ among with inside | leads
      · exact inside
      · rw [ready q leads] at missing
        cases missing
    · have nonempty : added ≠ [] := List.ne_nil_of_mem member
      exact absurd (adds.creates.mp nonempty) idle

variable (outputDir : List Char)

def madePlace (entryName : List Char) : Place :=
  let path := filePath host outputDir entryName
  Place.resolve host.current (if endsWithSlash entryName then path else dirPart path)

def filePlace (entryName : List Char) : Place := Place.resolve host.current (filePath host outputDir entryName)

/-- The entry resolves inside, or nothing can be created where it leads. -/
structure EntryConfined (base : Place) (world : ZipWorld) (entry : ZipEntry) : Prop where
  directory : Place.Within base (madePlace host outputDir (host.fromUtf8 entry.nameBuf)) ∨
    ¬ Creates host world (madePlace host outputDir (host.fromUtf8 entry.nameBuf))
  file : endsWithSlash (host.fromUtf8 entry.nameBuf) = false →
    Place.Within base (filePlace host outputDir (host.fromUtf8 entry.nameBuf)) ∨
    host.openable (filePlace host outputDir (host.fromUtf8 entry.nameBuf)) = false

/-- What one entry adds to the directories created and the files opened. -/
structure Touches (world after : ZipWorld) (added opened : List Place) : Prop where
  created : after.created = world.created ++ added
  opened : after.opened = world.opened ++ opened

variable {F : Format UInt8 UInt8} (D : IdealDecoder F) (input : List UInt8)

/-- Whatever becomes of its data, a file is opened once at most. -/
theorem extractEntry_log (world : ZipWorld) (entry : ZipEntry) :
    (extractEntry D host input outputDir world entry).2.created
      = (mkpath host world (dirPart (filePath host outputDir (host.fromUtf8 entry.nameBuf)))).2.created ∧
    (extractEntry D host input outputDir world entry).2.opened
      = (mkpath host world (dirPart (filePath host outputDir (host.fromUtf8 entry.nameBuf)))).2.opened
        ++ if host.openable (filePlace host outputDir (host.fromUtf8 entry.nameBuf)) = true
          then [filePlace host outputDir (host.fromUtf8 entry.nameBuf)] else [] := by
  simp only [extractEntry]
  split
  next shut =>
    have closed : ¬ host.openable (filePlace host outputDir (host.fromUtf8 entry.nameBuf)) = true := shut
    rw [if_neg closed,List.append_nil]
    exact ⟨rfl,rfl⟩
  next opens =>
    have opened : host.openable (filePlace host outputDir (host.fromUtf8 entry.nameBuf)) = true := not_not.mp opens
    rw [if_pos opened]
    split
    next =>
      split
      all_goals exact ⟨rfl,rfl⟩
    next =>
      split
      next =>
        split
        next => exact ⟨rfl,rfl⟩
        next =>
          split
          all_goals exact ⟨rfl,rfl⟩
      next => exact ⟨rfl,rfl⟩

theorem performEntry_touches (world : ZipWorld) (entry : ZipEntry) :
    ∃ added opened made, Touches world (performEntry D host input outputDir world entry).2 added opened ∧
      Added host world (madePlace host outputDir (host.fromUtf8 entry.nameBuf)).leading made added ∧
      opened = if endsWithSlash (host.fromUtf8 entry.nameBuf) = false ∧
          host.openable (filePlace host outputDir (host.fromUtf8 entry.nameBuf)) = true
        then [filePlace host outputDir (host.fromUtf8 entry.nameBuf)] else [] := by
  obtain ⟨added,adds⟩ := makeDirectories_adds host world
    (madePlace host outputDir (host.fromUtf8 entry.nameBuf)).leading
  have after := adds.after
  by_cases slash : endsWithSlash (host.fromUtf8 entry.nameBuf) = true
  · simp only [madePlace,if_pos slash] at after
    refine ⟨added,[],_,⟨?_,?_⟩,adds,by simp [slash]⟩
    · simp only [performEntry,if_pos slash,makeEntry,mkpath]
      rw [after]
    · simp only [performEntry,if_pos slash,makeEntry,mkpath]
      rw [after,List.append_nil]
  · simp only [madePlace,if_neg slash] at after
    obtain ⟨created,opened⟩ := extractEntry_log host outputDir D input world entry
    simp only [mkpath,after] at created opened
    refine ⟨added,_,_,⟨?_,?_⟩,adds,rfl⟩
    · rw [performEntry,if_neg slash]
      exact created
    · rw [performEntry,if_neg slash,opened]
      simp [slash]

theorem entryConfined_iff {base : Place} {world : ZipWorld} (ready : Ready host world base) (entry : ZipEntry)
    {added opened : List Place} {made : Bool × ZipWorld}
    (adds : Added host world (madePlace host outputDir (host.fromUtf8 entry.nameBuf)).leading made added)
    (opens : opened = if endsWithSlash (host.fromUtf8 entry.nameBuf) = false ∧
          host.openable (filePlace host outputDir (host.fromUtf8 entry.nameBuf)) = true
        then [filePlace host outputDir (host.fromUtf8 entry.nameBuf)] else []) :
    ((∀ q ∈ added, Place.Within base q) ∧ ∀ q ∈ opened, Place.Within base q)
      ↔ EntryConfined host outputDir base world entry := by
  have directories := mkpath_inside_iff host ready adds
  constructor
  · rintro ⟨inside,files⟩
    refine ⟨directories.mp inside,?_⟩
    intro file
    by_cases openable : host.openable (filePlace host outputDir (host.fromUtf8 entry.nameBuf)) = true
    · refine .inl (files _ ?_)
      rw [opens,if_pos ⟨file,openable⟩]
      exact List.mem_singleton.mpr rfl
    · exact .inr (Bool.eq_false_of_not_eq_true openable)
  · intro confined
    refine ⟨directories.mpr confined.directory,?_⟩
    intro q member
    rw [opens] at member
    split at member
    next both =>
      rw [List.mem_singleton.mp member]
      rcases confined.file both.1 with inside | shut
      · exact inside
      · rw [both.2] at shut
        cases shut
    next => cases member

/-- The entries from a position on are confined, each in the state it finds, until one fails. -/
inductive Confined (base : Place) : Nat → ZipWorld → Prop where
  | ends {pos : Nat} {world : ZipWorld} (past : input.length ≤ pos) : Confined base pos world
  | ended {pos : Nat} {world : ZipWorld} (none_ : entryAt input pos = none) : Confined base pos world
  | failed {pos : Nat} {world after : ZipWorld} {entry : ZipEntry} {e : ErrorInfo}
      (found : entryAt input pos = some entry) (confined : EntryConfined host outputDir base world entry)
      (fails : performEntry D host input outputDir world entry = (.error e,after)) : Confined base pos world
  | done {pos : Nat} {world after : ZipWorld} {entry : ZipEntry}
      (found : entryAt input pos = some entry) (confined : EntryConfined host outputDir base world entry)
      (works : performEntry D host input outputDir world entry = (.ok (),after))
      (rest : Confined base (nextPosition host input entry) after) : Confined base pos world

/-- Whatever was created or opened since is inside. -/
structure Inside (base : Place) (world after : ZipWorld) : Prop where
  created : ∃ added, after.created = world.created ++ added ∧ ∀ q ∈ added, Place.Within base q
  opened : ∃ opened, after.opened = world.opened ++ opened ∧ ∀ q ∈ opened, Place.Within base q

theorem inside_refl (base : Place) (world : ZipWorld) : Inside base world world :=
  ⟨⟨[],by simp,by simp⟩,⟨[],by simp,by simp⟩⟩

theorem inside_step {base : Place} {world between after : ZipWorld} {added opened : List Place}
    (step : Touches world between added opened) (later : ∃ more files, Touches between after more files) :
    Inside base world after ↔ ((∀ q ∈ added, Place.Within base q) ∧ ∀ q ∈ opened, Place.Within base q) ∧
      Inside base between after := by
  obtain ⟨more,files,rest⟩ := later
  have created : after.created = world.created ++ (added ++ more) := by
    rw [rest.created,step.created,List.append_assoc]
  have opens : after.opened = world.opened ++ (opened ++ files) := by
    rw [rest.opened,step.opened,List.append_assoc]
  constructor
  · rintro ⟨⟨all,total,within_⟩,⟨touched,sum,inside⟩⟩
    have same : all = added ++ more := List.append_cancel_left (total.symm.trans created)
    have also : touched = opened ++ files := List.append_cancel_left (sum.symm.trans opens)
    subst same also
    refine ⟨⟨fun q member => within_ q (List.mem_append_left _ member),
      fun q member => inside q (List.mem_append_left _ member)⟩,⟨more,rest.created,?_⟩,⟨files,rest.opened,?_⟩⟩
    · exact fun q member => within_ q (List.mem_append_right _ member)
    · exact fun q member => inside q (List.mem_append_right _ member)
  · rintro ⟨⟨first,second⟩,⟨all,total,within_⟩,⟨touched,sum,inside⟩⟩
    have same : all = more := List.append_cancel_left (total.symm.trans rest.created)
    have also : touched = files := List.append_cancel_left (sum.symm.trans rest.opened)
    subst same also
    refine ⟨⟨_,created,?_⟩,⟨_,opens,?_⟩⟩
    · intro q member
      rcases List.mem_append.mp member with early | late
      · exact first q early
      · exact within_ q late
    · intro q member
      rcases List.mem_append.mp member with early | late
      · exact second q early
      · exact inside q late

theorem extractLoop_touches (pos : Nat) (world : ZipWorld) :
    ∃ added opened, Touches world (extractLoop D host input outputDir pos world).2 added opened := by
  fun_induction extractLoop D host input outputDir pos world with
  | case1 => exact ⟨[],[],by simp,by simp⟩
  | case2 => exact ⟨[],[],by simp,by simp⟩
  | case3 pos world more entry found e after fails =>
    obtain ⟨added,opened,_,touches,_⟩ := performEntry_touches host outputDir D input world entry
    rw [fails] at touches
    exact ⟨added,opened,touches⟩
  | case4 pos world more entry found after works ih =>
    obtain ⟨added,opened,_,touches,_⟩ := performEntry_touches host outputDir D input world entry
    obtain ⟨later,files,rest⟩ := ih
    rw [works] at touches
    refine ⟨added ++ later,opened ++ files,?_,?_⟩
    · rw [rest.created,touches.created,List.append_assoc]
    · rw [rest.opened,touches.opened,List.append_assoc]

theorem ready_after {base : Place} {world after : ZipWorld} {added opened : List Place}
    (ready : Ready host world base) (touches : Touches world after added opened) : Ready host after base := by
  intro q leads
  have before := exists_created host added (ready q leads)
  unfold exists_ at before ⊢
  rw [touches.created]
  exact before

theorem extractLoop_inside_iff (base : Place) (pos : Nat) (world : ZipWorld) (ready : Ready host world base) :
    Inside base world (extractLoop D host input outputDir pos world).2
      ↔ Confined host outputDir D input base pos world := by
  fun_induction extractLoop D host input outputDir pos world with
  | case1 pos world past => exact iff_of_true (inside_refl base world) (.ends past)
  | case2 pos world more none_ => exact iff_of_true (inside_refl base world) (.ended none_)
  | case3 pos world more entry found e after fails =>
    obtain ⟨added,opened,made,touches,adds,opens⟩ := performEntry_touches host outputDir D input world entry
    rw [fails] at touches
    rw [inside_step touches ⟨[],[],by simp,by simp⟩,entryConfined_iff host outputDir ready entry adds opens]
    constructor
    · rintro ⟨confined,_⟩
      exact .failed found confined fails
    · intro confined
      refine ⟨?_,inside_refl base after⟩
      cases confined with
      | ends past => exact absurd past more
      | ended none_ =>
        rw [none_] at found
        cases found
      | failed other holds _ =>
        rw [found] at other
        cases other
        exact holds
      | done other holds _ _ =>
        rw [found] at other
        cases other
        exact holds
  | case4 pos world more entry found after works ih =>
    obtain ⟨added,opened,made,touches,adds,opens⟩ := performEntry_touches host outputDir D input world entry
    rw [works] at touches
    rw [inside_step touches (extractLoop_touches ..),entryConfined_iff host outputDir ready entry adds opens,
      ih (ready_after host ready touches)]
    constructor
    · rintro ⟨confined,rest⟩
      exact .done found confined works rest
    · intro confined
      cases confined with
      | ends past => exact absurd past more
      | ended none_ =>
        rw [none_] at found
        cases found
      | failed other _ fails =>
        rw [found] at other
        cases other
        rw [works] at fails
        cases fails
      | done other holds succeeds rest =>
        rw [found] at other
        cases other
        rw [works] at succeeds
        cases succeeds
        exact ⟨holds,rest⟩

def outputPlace : Place := Place.resolve host.current (filePath host outputDir ['.'])

/-- Once the output directory exists, everything that is created or truncated is inside. -/
def StaysInside (inputPath : String) : Prop :=
  host.opens = true → ∀ world, mkpath host {} (filePath host outputDir ['.']) = (true,world) →
    Inside (outputPlace host outputDir) world (decompressZip D host input inputPath outputDir).2

/-- Extraction stays in its directory exactly if every entry it reaches resolves inside, or
finds nothing that it could create. -/
theorem decompressZip_inside_iff (inputPath : String) :
    StaysInside host outputDir D input inputPath ↔
      (host.opens = true → ∀ world, mkpath host {} (filePath host outputDir ['.']) = (true,world) →
        Confined host outputDir D input (outputPlace host outputDir) 0 world) := by
  have run (opens : host.opens = true) (world : ZipWorld)
      (made : mkpath host {} (filePath host outputDir ['.']) = (true,world)) :
      decompressZip D host input inputPath outputDir = extractLoop D host input outputDir 0 world := by
    simp only [decompressZip,opens,made,not_true_eq_false,if_false]
  have ready (world : ZipWorld) (made : mkpath host {} (filePath host outputDir ['.']) = (true,world)) :
      Ready host world (outputPlace host outputDir) := by
    obtain ⟨added,adds⟩ := makeDirectories_adds host {} (outputPlace host outputDir).leading
    change Added host {} _ (mkpath host {} (filePath host outputDir ['.'])) added at adds
    rw [made] at adds
    have after := adds.after
    simp only at after
    rw [after]
    exact adds.complete rfl
  constructor
  · intro stays opens world made
    have inside := stays opens world made
    rw [run opens world made] at inside
    exact (extractLoop_inside_iff host outputDir D input _ 0 world (ready world made)).mp inside
  · intro confined opens world made
    rw [run opens world made]
    exact (extractLoop_inside_iff host outputDir D input _ 0 world (ready world made)).mpr
      (confined opens world made)

end

def climbingArchive : List UInt8 :=
  [0x50,0x4B,0x03,0x04,0x0A,0,0,0,0,0,0,0,0,0,0,0,0,0,1,0,0,0,1,0,0,0,4,0,0,0,0x2E,0x2E,0x2F,0x78,0x41]

/-- The output directory C:/out exists, and every file can be opened. -/
def plainHost : ZipHost where
  current := { drive := ['C',':'],directory := fun _ => [] }
  isAbsolutePath := fun name => name.head?.any Place.isSeparator || name[1]? == some ':'
  fromUtf8 := fun bytes => bytes.map (fun b => Char.ofNat b.toNat)
  existing := fun place => place.names.length ≤ 1

def climbingEntry : ZipEntry where
  header := parseLocalHeader climbingArchive
  nameBuf := [0x2E,0x2E,0x2F,0x78]
  dataOffset := 34

/-- The entry is written to C:/x, whatever the decoder. -/
theorem entry_climbs :
    filePlace plainHost "C:/out".toList "../x".toList = { root := "C:".toList,names := ["x".toList] } ∧
    ¬ StaysInside plainHost "C:/out".toList copyingDecoder climbingArchive "a.zip" := by
  have place : filePlace plainHost "C:/out".toList "../x".toList
      = { root := "C:".toList,names := ["x".toList] } := by decide
  refine ⟨place,?_⟩
  intro stays
  have made : mkpath plainHost {} (filePath plainHost "C:/out".toList ['.']) = (true,{}) := by decide
  have found : entryAt climbingArchive 0 = some climbingEntry := by decide
  have inside := stays rfl {} made
  have run : decompressZip copyingDecoder plainHost climbingArchive "a.zip" "C:/out".toList
      = extractLoop copyingDecoder plainHost climbingArchive "C:/out".toList 0 {} := by
    simp only [decompressZip,made]
    rfl
  have ready : Ready plainHost {} (outputPlace plainHost "C:/out".toList) := by decide
  rw [run] at inside
  have confined := (extractLoop_inside_iff plainHost "C:/out".toList copyingDecoder climbingArchive _ 0 {}
    ready).mp inside
  have outside (entry : EntryConfined plainHost "C:/out".toList (outputPlace plainHost "C:/out".toList) {}
      climbingEntry) : False := by
    rcases entry.file (by decide) with within_ | shut
    · exact absurd within_ (by decide)
    · cases shut
  cases confined with
  | ends past => exact absurd past (by decide)
  | ended none_ =>
    rw [found] at none_
    cases none_
  | failed other holds _ =>
    rw [found] at other
    cases other
    exact outside holds
  | done other holds _ _ =>
    rw [found] at other
    cases other
    exact outside holds

end SetecWizard.Core.Decompressor
