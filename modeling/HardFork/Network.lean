import HardFork.Schedule

/-! # The networks that are known by name -/
namespace HardFork.Network

def mainnetGenesis : Hash :=
  .ofNat 32 0xd179bc170ecd216166ba440a2cff697ba1ed4e203ddcb51214e52773906ca3fc
def testnetGenesis : Hash :=
  .ofNat 32 0x3e98a8f1704be5accc0ce9abf3e852e24ec030a9dda6c1beaf72c600f85cd417

def mainnetCveBlock : UInt64 := 2509228
def mainnetIshikariBlock : UInt64 := 11171299

def mainnetEngine : Posa where
  period := 3
  epoch := 100
  validators :=
    [.ofNat 20 0x1105c97ffbd985600e6dc8e06e477b99d0a9ff39,
     .ofNat 20 0xeac6d9b96c73a637ba9d7a54dc4faece0300fcb3,
     .ofNat 20 0x98a96f0db2185a9462c0cedd1a6259955fff7353,
     .ofNat 20 0x429663140a87d0ee4ac6b6d3cf8a538b46d18e49,
     .ofNat 20 0x6ee29fbbe3e0bdbf86773d71ebc6b5e38ce81e2e,
     .ofNat 20 0x87fcfadc3af29ab3197c81ec247c0b28f465fafe,
     .ofNat 20 0x43e3adc88f337e0596b47d4c1794294b99226e5f,
     .ofNat 20 0xe270d4fce42c7713f1ad9cc75d41b7a69558a169,
     .ofNat 20 0xbe5f2ffcbd26fc5304721de0c7279960c453b8f0,
     .ofNat 20 0x9d4a6f12d16c7950ff58ab7ea26cdd837697db6f,
     .ofNat 20 0xad291383864e1999fc7a36120562f1bb59dfea99]
  managers :=
    [.ofNat 20 0x65E958D3EA7e60F33098dc665B0C8B7Dc563FA72,
     .ofNat 20 0x6586e16EB5574f79bA4Cfa46C3b37bAEAAC50f32,
     .ofNat 20 0xCCbb95B446e7CFd23fb80374b92d1F6F33e073E2,
     .ofNat 20 0x20fefFC0f3182Ec1F7507624Fe643a5B853Cb04D,
     .ofNat 20 0x55396D01b6383f7A576460fb33ef29ced3A744f8,
     .ofNat 20 0x914b49DBC9BDd151Cf3b76f7E19963b61e90DbEC,
     .ofNat 20 0x0Bcc6F86f105679881456699E91389fBd07e4cC3,
     .ofNat 20 0xD2081060FB57bF06668195979C6c200d31f7cb4B,
     .ofNat 20 0xC2fCf0C527E0642b14778876d57b8a6f582d25f5,
     .ofNat 20 0xb9D71eF2D3A31588EF9196e66d69EE20B7302af8,
     .ofNat 20 0x68A6a68d03D405af7E4676e5D92AD4BD7d1d004a]
  admin := .ofNat 20 0xD4139cc315164d4dcC696a18902F2e6b7B5D3de8

def testnetEngine : Posa where
  period := 3
  epoch := 100
  validators :=
    [.ofNat 20 0x20b9a60c5a2137259ce81e45a1310a754270753b,
     .ofNat 20 0xe40c3ef8dc2dd6d3edecd8ebdc64a6b68f530589,
     .ofNat 20 0xce7878e800408d60e7b55d7d5c56519f329a77fc,
     .ofNat 20 0xbf8144aa88bea302548f51b3d776b8b7e4453449]
  managers :=
    [.ofNat 20 0xc6C450C46F71AD568d8BfA16Ca597906eb017c71,
     .ofNat 20 0x9E207e1e0BB946d676fA5c86ed95cC997d6A6369,
     .ofNat 20 0x0B3c112e1dc42487302d3d8b5c0A714Ec5BeBe27,
     .ofNat 20 0x6862F46C4cf0E4ECCE9186651637F4c692015A7c]
  admin := .ofNat 20 0x22e4A5dfFee45CeaBd4d7c45814BfC27dF3776b4

/-- All forks up to Berlin, and the fix, from the first block on. -/
def atStart (chainId : UInt64) (engine : Engine) : Schedule where
  chainId := some (.ofWord chainId)
  homesteadBlock := .scheduled 0
  eip150Block := .scheduled 0
  eip155Block := .scheduled 0
  eip158Block := .scheduled 0
  byzantiumBlock := .scheduled 0
  constantinopleBlock := .scheduled 0
  petersburgBlock := .scheduled 0
  istanbulBlock := .scheduled 0
  muirGlacierBlock := .scheduled 0
  berlinBlock := .scheduled 0
  cve39137Block := .scheduled 0
  engine := engine

def mainnet : Schedule :=
  { atStart 126 (.posa mainnetEngine) with
    daoForkSupport := true
    cve39137Block := .scheduled mainnetCveBlock
    ishikariBlock := .scheduled mainnetIshikariBlock
    ishikariPatch1Block := .scheduled mainnetIshikariBlock
    ishikariPatch2Block := .scheduled mainnetIshikariBlock }

def testnet : Schedule :=
  { atStart 322 (.posa testnetEngine) with
    daoForkSupport := true
    ishikariBlock := .scheduled 11321699
    ishikariPatch1Block := .scheduled 12153317
    ishikariPatch2Block := .scheduled 12162886 }

def devEthash : Schedule := atStart 1337 .ethash
def devClique : Schedule := atStart 1337 (.clique ⟨0, 30000⟩)
def test : Schedule := atStart 1 .ethash

def named : List (String × Schedule) :=
  [("mainnet", mainnet), ("testnet", testnet), ("dev-ethash", devEthash),
   ("dev-clique", devClique), ("test", test)]

def named? (name : String) : Option Schedule := named.lookup name

end HardFork.Network
