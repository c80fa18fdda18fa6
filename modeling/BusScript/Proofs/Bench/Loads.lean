import BusScript.Bench.Model
import BusScript.Proofs.Memory.Images
import BusScript.Proofs.Sequence

/-!
# Preloads of images

A preload that finds its target and an image in its file puts the image into the store of the
target. What is read there afterwards are the words of the image, as far as they are words of four
bytes and the memory has a place of its own for each (`preloaded_words_read_back`).
-/

namespace BusScript.Model

/-- The store of a target, if it has one. -/
def World.store? (world : World) : Target → Option Store
  | .shared => some world.shared
  | .named path => (world.memories.find? (·.1 == path)).map (·.2)

theorem World.store?_changeTarget (world : World) (target : Target) (change : Store → Store) :
    (world.changeTarget target change).store? target = (world.store? target).map change := by
  cases target with
  | shared => rfl
  | named path =>
    unfold store? changeTarget
    dsimp only
    induction world.memories with
    | nil => rfl
    | cons memory rest ih =>
      obtain ⟨name, store⟩ := memory
      by_cases here : name = path
      · simp [here]
      · simpa [here] using ih

theorem exists_store_of_target? {setup : Setup} {world : World} {path : String} {target : Target}
    (known : target? setup world path = some target) :
    ∃ store, world.store? target = some store := by
  unfold target? at known
  split at known
  · rename_i listed
    cases known
    obtain ⟨memory, found⟩ := Option.isSome_iff_exists.mp
      (List.find?_isSome.mpr (List.any_eq_true.mp listed))
    exact ⟨memory.2, by rw [World.store?, found]; rfl⟩
  · split at known
    · cases known
      exact ⟨_, rfl⟩
    · cases known

variable {setup : Setup} {world : World} {load : Load}

/-- A preload that finds its target and its image changes the store of the target by the image. -/
theorem store?_runLoad {target : Target} {image : Image}
    (known : target? setup world load.target = some target)
    (accepted : readImage setup (imagePath setup load.dataFile) = .ok image) :
    (runLoad setup world load).1.store? target =
      (world.store? target).map (image.load setup.wordBytes) := by
  unfold runLoad
  rw [known]
  dsimp only
  rw [accepted]
  exact world.store?_changeTarget target _

theorem mapError_eq_ok_iff {ε δ α : Type} {x : Except ε α} {rename : ε → δ} {a : α} :
    x.mapError rename = .ok a ↔ x = .ok a := by
  cases x <;> simp [Except.mapError]

/-- An image is read from a file whose bytes are a text that describes it. -/
theorem readImage_eq_ok_iff {path : Path} {image : Image} :
    readImage setup path = .ok image ↔
      ∃ bytes text, setup.files.read path.toString = .ok bytes ∧
        Text.Utf8.decodeAll bytes = .ok text ∧ Image.ofText text = .ok image := by
  simp only [readImage, bind_eq_ok_iff, mapError_eq_ok_iff, exists_and_left]

/-- After a preload into a memory of four-byte words, all words of the image are read back as they
stand in it exactly if they have four bytes and none is laid over another. In any case each place
holds the word that comes last there, cut to four bytes, and the rest of the memory is as before. -/
theorem preloaded_words_read_back (four : setup.wordBytes = 4) {target : Target} {image : Image}
    (known : target? setup world load.target = some target)
    (accepted : readImage setup (imagePath setup load.dataFile) = .ok image) :
    ∃ before after, world.store? target = some before ∧
      (runLoad setup world load).1.store? target = some after ∧
      (image.words.map (·.1)).Nodup ∧
      ((∀ word ∈ image.words, (after.read (4 * word.1) 4 : Int) = word.2) ↔ image.Lasts) ∧
      (∀ front word behind index, image.words = front ++ word :: behind →
        Image.SamePlace word.1 index → (∀ later ∈ behind, ¬Image.SamePlace index later.1) →
          (after.read (4 * index) 4 : Int) = word.2 % 2 ^ 32) ∧
      ∀ address : Int,
        (∀ word ∈ image.words, ∀ offset : ℕ, offset < 4 →
          (4 * word.1 + offset) % 2 ^ 32 ≠ address % 2 ^ 32) →
        after.byte address = before.byte address := by
  obtain ⟨before, store⟩ := exists_store_of_target? known
  have loaded := store?_runLoad known accepted
  rw [store, four] at loaded
  obtain ⟨bytes, text, -, -, spelled⟩ := readImage_eq_ok_iff.mp accepted
  refine ⟨before, image.load 4 before, store, loaded, Image.nodup_ofText spelled,
    Image.read_load_iff_lasts, ?_, fun address => Image.byte_load⟩
  intro front word behind index split here last
  exact Image.read_load split here last

/-- Two words that go round the end of the memory: the second is at the first place. -/
theorem preloaded_words_read_back_round_end :
    let setup : Setup :=
      { axiWidth := 64
        files := ⟨[(["a.hex"], .file (Text.Utf8.encode "@3FFFFFFF DEAD_BEEF 7".toList))]⟩
        targetsShared := true }
    let load : Load := { handle := 0, target := "top.ram", dataFile := "a.hex" }
    ∃ after, (runLoad setup {} load).1.store? .shared = some after ∧
      after.read (4 * 0x3FFFFFFF) 4 = 0xDEADBEEF ∧ after.read (4 * 0x40000000) 4 = 7 := by
  intro setup load
  let image : Image := ⟨[(0x3FFFFFFF, 0xDEADBEEF), (0x40000000, 7)]⟩
  have accepted : readImage setup (imagePath setup load.dataFile) = .ok image := by decide +kernel
  have lasts : image.Lasts := ⟨by decide, by decide⟩
  obtain ⟨before, after, -, loaded, -, back, -, -⟩ :=
    @preloaded_words_read_back setup {} load rfl .shared image rfl accepted
  have last : (after.read (4 * 0x3FFFFFFF) 4 : Int) = (0xDEADBEEF : ℕ) :=
    back.mpr lasts (0x3FFFFFFF, 0xDEADBEEF) (by decide)
  have first : (after.read (4 * 0x40000000) 4 : Int) = (7 : ℕ) :=
    back.mpr lasts (0x40000000, 7) (by decide)
  exact ⟨after, loaded, Int.natCast_inj.mp last, Int.natCast_inj.mp first⟩

/-- A word of nine digits loses the first of them, and a word gives way to one that is laid a whole
turn of the memory behind it. -/
theorem preload_cuts_and_overwrites :
    let setup : Setup :=
      { axiWidth := 64
        files := ⟨[(["a.hex"], .file (Text.Utf8.encode "123456789 22 @40000001 33".toList))]⟩
        targetsShared := true }
    let load : Load := { handle := 0, target := "top.ram", dataFile := "a.hex" }
    let image : Image := ⟨[(0, 0x123456789), (1, 0x22), (0x40000001, 0x33)]⟩
    readImage setup (imagePath setup load.dataFile) = .ok image ∧
      ∃ after, (runLoad setup {} load).1.store? .shared = some after ∧
        after.read (4 * 0) 4 = 0x23456789 ∧ after.read (4 * 1) 4 = 0x33 ∧
        ¬∀ word ∈ image.words, (after.read (4 * word.1) 4 : Int) = word.2 := by
  intro setup load image
  have accepted : readImage setup (imagePath setup load.dataFile) = .ok image := by decide +kernel
  have loaded := @store?_runLoad setup {} load .shared image rfl accepted
  have first : (image.load 4 {}).read (4 * 0) 4 = 0x23456789 := by decide +kernel
  have second : (image.load 4 {}).read (4 * 1) 4 = 0x33 := by decide +kernel
  refine ⟨accepted, _, loaded, first, second, fun back => ?_⟩
  have wrong := back (0, 0x123456789) (by decide)
  rw [first] at wrong
  cases wrong

end BusScript.Model
