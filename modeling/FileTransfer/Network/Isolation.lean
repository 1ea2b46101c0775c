import FileTransfer.FileStream.Folders
import FileTransfer.Lib.Noninterference
import FileTransfer.Network.DataHandler

/-!
# Connections do not influence each other's files

All handlers of a server share one encryption object, with a decryptor that keeps a position in
its keystream, and one file system. But `Decrypt` starts the keystream again for each call, and
each handler writes in the folder of its own ID only.
-/

namespace FileTransfer

open Posix

/-- The bytes of an ASCII text stand for it. -/
theorem ascii_injective {text text' : List Char} (small : ∀ c ∈ text, c.toNat < 256)
    (small' : ∀ c ∈ text', c.toNat < 256)
    (same : (text.map fun c => UInt8.ofNat c.toNat) = text'.map fun c => UInt8.ofNat c.toNat) :
    text = text' := by
  induction text generalizing text' with
  | nil => exact (List.map_eq_nil_iff.mp same.symm).symm
  | cons c text ih =>
    cases text' with
    | nil => cases same
    | cons c' text' =>
      obtain ⟨first, rest⟩ := List.cons.inj same
      have numbers : c.toNat = c'.toNat := by
        have bytes := congrArg UInt8.toNat first
        rw [UInt8.toNat_ofNat', UInt8.toNat_ofNat'] at bytes
        have bound := small c List.mem_cons_self
        have bound' := small' c' List.mem_cons_self
        omega
      rw [Char.toNat_inj.mp numbers, ih (fun d member => small d (List.mem_cons_of_mem _ member))
        (fun d member => small' d (List.mem_cons_of_mem _ member)) rest]

namespace DataHandler

/-- The digits of an ID, as bytes. -/
theorem clientFolder_eq (id : Nat) :
    clientFolder id =
      ascii "client_" ++ (Nat.toDigits 10 id).map fun c => UInt8.ofNat c.toNat := by
  rw [clientFolder, ascii, String.toList_append, List.map_append, ascii,
    show toString id = id.repr from rfl, Nat.toList_repr]

theorem digit_range {id : Nat} {c : Char} (member : c ∈ Nat.toDigits 10 id) :
    48 ≤ c.toNat ∧ c.toNat ≤ 57 :=
  Char.isDigit_iff_toNat.mp (Nat.isDigit_of_mem_toDigits (by decide) (by decide) member)

theorem digit_bytes {id : Nat} {byte : UInt8}
    (member : byte ∈ (Nat.toDigits 10 id).map fun c => UInt8.ofNat c.toNat) : 48 ≤ byte.toNat := by
  obtain ⟨c, digit, rfl⟩ := List.mem_map.mp member
  have range := digit_range digit
  rw [UInt8.toNat_ofNat']
  omega

theorem clientFolder_injective {id id' : Nat} (same : clientFolder id = clientFolder id') :
    id = id' := by
  rw [clientFolder_eq, clientFolder_eq] at same
  have digits := ascii_injective
    (fun c member => by have range := digit_range member; omega)
    (fun c member => by have range := digit_range member; omega) (List.append_cancel_left same)
  have number := congrArg (fun text => Nat.ofDigitChars 10 text 0) digits
  simpa only [Nat.ofDigitChars_toDigits (by decide : 1 < 10) (by decide)] using number

/-- The folder of a client is one component of a path. -/
theorem clientFolder_oneComponent {host : Host} (currentPath : 0 ∉ host.currentPath) (id : Nat) :
    OneComponent host (clientFolder id) := by
  have outside : ∀ byte : UInt8, byte.toNat < 48 → byte ∉ ascii "client_" →
      byte ∉ clientFolder id := by
    intro byte small notPrefix member
    rw [clientFolder_eq] at member
    rcases List.mem_append.mp member with before | digit
    · exact notPrefix before
    · have large := digit_bytes digit
      omega
  refine ⟨currentPath, outside 0 (by decide) (by decide), outside separator (by decide) (by decide),
    ?_⟩
  have long : 3 ≤ (clientFolder id).length := by
    rw [clientFolder_eq, List.length_append]
    have seven : (ascii "client_").length = 7 := by decide
    omega
  intro member
  have short : ∀ path ∈ ([[], [46], [46, 46]] : List Path), path.length < 3 := by decide
  exact absurd (short _ member) (by omega)

/-- The folder of a client. -/
def clientPath (host : Host) (id : Nat) : Path := join host.currentPath (clientFolder id)

/-- The first component below the place of the client folders. -/
theorem takeWhile_inFolder {host : Host} (currentPath : 0 ∉ host.currentPath) :
    ∃ base : Path, ∀ id path, InFolder (clientPath host id) path →
      ∃ rest, path = base ++ rest ∧ rest.takeWhile (· ≠ separator) = clientFolder id := by
  have component := fun id => clientFolder_oneComponent currentPath id
  obtain ⟨base, split⟩ : ∃ base : Path, ∀ id, clientPath host id = base ++ clientFolder id := by
    by_cases trailing : filename host.currentPath = []
    · refine ⟨host.currentPath, ?_⟩
      intro id
      rw [clientPath, join, if_neg (component id).head, if_pos trailing]
    · refine ⟨host.currentPath ++ [separator], ?_⟩
      intro id
      rw [clientPath, join, if_neg (component id).head, if_neg trailing]
      simp
  refine ⟨base, ?_⟩
  intro id path inside
  have first : ∀ rest, (clientFolder id ++ rest).takeWhile (· ≠ separator) =
      clientFolder id ++ rest.takeWhile (· ≠ separator) := by
    intro rest
    apply List.takeWhile_append_of_pos
    intro byte member
    exact decide_eq_true fun same => (component id).single (same ▸ member)
  rcases inside with rfl | ⟨rest, rfl⟩
  · refine ⟨clientFolder id, split id, ?_⟩
    simpa using first []
  · refine ⟨clientFolder id ++ separator :: rest, ?_, ?_⟩
    · rw [split, List.append_assoc]
    · rw [first]
      simp

/-- No path is in the folders of two clients. -/
theorem clientPath_apart {host : Host} (currentPath : 0 ∉ host.currentPath) {id id' : Nat}
    (differ : id ≠ id') (path : Path) (inside : InFolder (clientPath host id) path) :
    ¬ InFolder (clientPath host id') path := by
  intro inside'
  obtain ⟨base, cut⟩ := takeWhile_inFolder currentPath
  obtain ⟨rest, whole, first⟩ := cut id path inside
  obtain ⟨rest', whole', first'⟩ := cut id' path inside'
  have same : rest = rest' := List.append_cancel_left (whole.symm.trans whole')
  apply differ
  apply clientFolder_injective
  rw [← first, ← first', same]

variable {host : Host} {keystream : Keystream} {h : DataHandler} {sh sh' : Shared}

/-- An open file is in the client's folder. -/
def Placed (host : Host) (h : DataHandler) : Prop :=
  ∀ writer, h.dataWriter = some writer → InFolder (clientPath host h.id) writer.stream.path

/-- What is received does not depend on the state of the shared decryptor. -/
theorem receive_congr (data : List UInt8) :
    (receive keystream h sh data).1 = (receive keystream h sh' data).1 ∧
      (receive keystream h sh data).2.1 = (receive keystream h sh' data).2.1 ∧
      (receive keystream h sh data).2.2.files = sh.files := by
  obtain ⟨result, serializer⟩ :=
    @Serializer.unpack_congr keystream h.serializer sh.encryption sh'.encryption data
  unfold receive
  revert result serializer
  rcases h.serializer.unpack keystream sh.encryption data with ⟨result, serializer, encryption⟩
  rcases h.serializer.unpack keystream sh'.encryption data with
    ⟨result', serializer', encryption'⟩
  intro sameResult sameSerializer
  obtain rfl : result = result' := sameResult
  obtain rfl : serializer = serializer' := sameSerializer
  cases result with
  | error fault => exact ⟨rfl, rfl, rfl⟩
  | ok recovered =>
    by_cases empty : recovered = []
    · simp only [if_pos empty, and_self]
    · simp only [if_neg empty, and_self]

/-- Receiving keeps the ID and the open file. -/
theorem receive_frame (data : List UInt8) :
    (receive keystream h sh data).2.1.id = h.id ∧
      (receive keystream h sh data).2.1.dataWriter = h.dataWriter := by
  unfold receive
  rcases h.serializer.unpack keystream sh.encryption data with ⟨result, serializer, encryption⟩
  cases result with
  | error fault => exact ⟨rfl, rfl⟩
  | ok recovered =>
    by_cases empty : recovered = []
    · simp only [if_pos empty, and_self]
    · simp only [if_neg empty, and_self]

/-- The folder of a client is handled alike from file systems that agree in it. -/
theorem dispatch_congr (currentPath : 0 ∉ host.currentPath) (placed : Placed host h)
    (agree : AgreeIn (clientPath host h.id) sh.files sh'.files) (type : DataType)
    (recovered : List UInt8) :
    (dispatch host h sh type recovered).1 = (dispatch host h sh' type recovered).1 ∧
      (dispatch host h sh type recovered).2.1 = (dispatch host h sh' type recovered).2.1 ∧
      AgreeIn (clientPath host h.id) (dispatch host h sh type recovered).2.2.files
        (dispatch host h sh' type recovered).2.2.files := by
  unfold dispatch
  by_cases name : type = .typeFileName
  · rw [if_pos name, if_pos name]
    unfold handleFileName
    by_cases empty : recovered = []
    · rw [if_pos empty, if_pos empty]
      exact ⟨rfl, rfl, agree⟩
    · rw [if_neg empty, if_neg empty]
      have component := clientFolder_oneComponent currentPath h.id
      obtain ⟨result, agree'⟩ := FileDataWriter.create_congr component agree recovered
      revert result agree'
      rcases FileDataWriter.create host sh.files recovered (clientFolder h.id) with ⟨created, files⟩
      rcases FileDataWriter.create host sh'.files recovered (clientFolder h.id) with
        ⟨created', files'⟩
      intro sameCreated agree'
      obtain rfl : created = created' := sameCreated
      cases created with
      | error fault => exact ⟨rfl, rfl, agree'⟩
      | ok writer => exact ⟨rfl, rfl, agree'⟩
  · rw [if_neg name, if_neg name]
    by_cases fileData : type = .typeFileData
    · rw [if_pos fileData, if_pos fileData]
      unfold handleFileData
      cases opened : h.dataWriter with
      | none => exact ⟨rfl, rfl, agree⟩
      | some writer =>
        obtain ⟨sameWriter, agree'⟩ :=
          FileDataWriter.write_congr agree (placed writer opened) recovered
        simp only [sameWriter]
        exact ⟨trivial, trivial, agree'⟩
    · rw [if_neg fileData, if_neg fileData]
      exact ⟨rfl, rfl, agree⟩

/-- A handler changes its client's folder only, and stays there. -/
theorem dispatch_confined (currentPath : 0 ∉ host.currentPath) (placed : Placed host h)
    (type : DataType) (recovered : List UInt8) :
    AgreeOutside (clientPath host h.id) sh.files (dispatch host h sh type recovered).2.2.files ∧
      (dispatch host h sh type recovered).2.1.id = h.id ∧
      Placed host (dispatch host h sh type recovered).2.1 := by
  unfold dispatch
  by_cases name : type = .typeFileName
  · rw [if_pos name]
    unfold handleFileName
    by_cases empty : recovered = []
    · rw [if_pos empty]
      exact ⟨AgreeOutside.refl _, rfl, placed⟩
    · rw [if_neg empty]
      have component := clientFolder_oneComponent currentPath h.id
      obtain ⟨outside, stream⟩ :=
        @FileDataWriter.create_confined host sh.files _ component recovered
      revert outside stream
      rcases FileDataWriter.create host sh.files recovered (clientFolder h.id) with ⟨created, files⟩
      intro outside stream
      cases created with
      | error fault => exact ⟨outside, rfl, placed⟩
      | ok writer =>
        refine ⟨outside, rfl, ?_⟩
        intro writer' opened
        cases opened
        exact stream writer rfl
  · rw [if_neg name]
    by_cases fileData : type = .typeFileData
    · rw [if_pos fileData]
      unfold handleFileData
      cases opened : h.dataWriter with
      | none => exact ⟨AgreeOutside.refl _, rfl, placed⟩
      | some writer =>
        have inside := placed writer opened
        refine ⟨FileDataWriter.write_confined inside recovered, rfl, ?_⟩
        intro writer' opened'
        have written : (writer.write sh.files recovered).1 = writer' := Option.some.inj opened'
        rw [← written, FileDataWriter.write_path]
        exact inside
    · rw [if_neg fileData]
      exact ⟨AgreeOutside.refl _, rfl, placed⟩

/-- `Write` gives the same from file systems that agree in the client's folder, whatever the
    state of the shared decryptor. -/
theorem write_congr (currentPath : 0 ∉ host.currentPath) (placed : Placed host h)
    (agree : AgreeIn (clientPath host h.id) sh.files sh'.files) (data : List UInt8) :
    (write host keystream h sh data).1 = (write host keystream h sh' data).1 ∧
      (write host keystream h sh data).2.1 = (write host keystream h sh' data).2.1 ∧
      AgreeIn (clientPath host h.id) (write host keystream h sh data).2.2.files
        (write host keystream h sh' data).2.2.files := by
  obtain ⟨result, handler, files⟩ := @receive_congr keystream h sh sh' data
  obtain ⟨-, -, files'⟩ := @receive_congr keystream h sh' sh data
  obtain ⟨sameId, sameWriter⟩ := @receive_frame keystream h sh data
  unfold write
  revert result handler files files' sameId sameWriter
  rcases receive keystream h sh data with ⟨received, h₁, sh₁⟩
  rcases receive keystream h sh' data with ⟨received', h₁', sh₁'⟩
  intro result handler files files' sameId sameWriter
  obtain rfl : received = received' := result
  obtain rfl : h₁ = h₁' := handler
  replace sameId : h₁.id = h.id := sameId
  have placed₁ : Placed host h₁ := by
    intro writer opened
    rw [sameId]
    exact placed writer (sameWriter.symm.trans opened)
  have agree₁ : AgreeIn (clientPath host h₁.id) sh₁.files sh₁'.files := by
    rw [sameId, show sh₁.files = sh.files from files, show sh₁'.files = sh'.files from files']
    exact agree
  cases received with
  | error fault =>
    refine ⟨rfl, rfl, ?_⟩
    rw [← sameId]
    exact agree₁
  | ok recovered =>
    obtain ⟨dispatched, handler₂, agree₂⟩ :=
      dispatch_congr currentPath placed₁ agree₁ recovered.1 recovered.2
    rw [← sameId]
    revert dispatched handler₂ agree₂
    simp only
    rcases dispatch host h₁ sh₁ recovered.1 recovered.2 with ⟨done, h₂, sh₂⟩
    rcases dispatch host h₁ sh₁' recovered.1 recovered.2 with ⟨done', h₂', sh₂'⟩
    intro dispatched handler₂ agree₂
    obtain rfl : done = done' := dispatched
    obtain rfl : h₂ = h₂' := handler₂
    cases done with
    | error fault => exact ⟨rfl, rfl, agree₂⟩
    | ok done => exact ⟨rfl, rfl, agree₂⟩

/-- `Write` changes the client's folder only. -/
theorem write_confined (currentPath : 0 ∉ host.currentPath) (placed : Placed host h)
    (data : List UInt8) :
    AgreeOutside (clientPath host h.id) sh.files (write host keystream h sh data).2.2.files ∧
      (write host keystream h sh data).2.1.id = h.id ∧
      Placed host (write host keystream h sh data).2.1 := by
  obtain ⟨-, -, files⟩ := @receive_congr keystream h sh sh data
  obtain ⟨sameId, sameWriter⟩ := @receive_frame keystream h sh data
  unfold write
  revert files sameId sameWriter
  rcases receive keystream h sh data with ⟨received, h₁, sh₁⟩
  intro files sameId sameWriter
  replace sameId : h₁.id = h.id := sameId
  have placed₁ : Placed host h₁ := by
    intro writer opened
    rw [sameId]
    exact placed writer (sameWriter.symm.trans opened)
  rw [← sameId, ← show sh₁.files = sh.files from files]
  cases received with
  | error fault => exact ⟨AgreeOutside.refl _, rfl, placed₁⟩
  | ok recovered =>
    obtain ⟨outside, sameId₂, placed₂⟩ :=
      @dispatch_confined host h₁ sh₁ currentPath placed₁ recovered.1 recovered.2
    revert outside sameId₂ placed₂
    simp only
    rcases dispatch host h₁ sh₁ recovered.1 recovered.2 with ⟨done, h₂, sh₂⟩
    intro outside sameId₂ placed₂
    cases done with
    | error fault => exact ⟨outside, sameId₂, placed₂⟩
    | ok done => exact ⟨outside, sameId₂, placed₂⟩

end DataHandler

end FileTransfer
