/-!
# The helper of generated code

The library that every generated deployer imports. It creates contracts
at addresses that are known in advance, and deploys a library only if it
is not there yet.
-/

namespace SolDeployer.Solidity.DeployHelper

def fileName : String := "DeployHelper.sol"

def lines : List String := [
  "// SPDX-License-Identifier: MIT",
  "pragma solidity ^0.8.13;",
  "",
  "library DeployHelper \x7b",
  "    function deploy(bytes memory initcode, bytes32 salt, uint256 value) internal " ++
    "returns (address contractAddress) \x7b",
  "        assembly (\"memory-safe\") \x7b",
  "            contractAddress := create2(value, add(initcode, 32), mload(initcode), salt)",
  "            if iszero(contractAddress) \x7b",
  "                let ptr := mload(0x40)",
  "                let errorSize := returndatasize()",
  "                returndatacopy(ptr, 0, errorSize)",
  "                revert(ptr, errorSize)",
  "            \x7d",
  "        \x7d",
  "    \x7d",
  "",
  "    function deploy(bytes memory initcode, bytes32 salt) internal returns (address " ++
    "contractAddress) \x7b",
  "        contractAddress = deploy(initcode, salt, 0);",
  "    \x7d",
  "",
  "    function deploy(bytes memory initcode) internal returns (address contractAddress) \x7b",
  "        contractAddress = deploy(initcode, bytes32(0), 0);",
  "    \x7d",
  "",
  "    function computeAddress(bytes memory initcode, bytes32 salt) internal view returns " ++
    "(address) \x7b",
  "        return address(uint160(uint256(keccak256(abi.encodePacked(bytes1(0xff), " ++
    "address(this), salt, keccak256(initcode))))));",
  "    \x7d",
  "",
  "    /// @dev Deploys a library using CREATE2 with zero salt.",
  "    ///      If the library is already deployed (duplicate across contracts), returns " ++
    "the existing address.",
  "    function deployLibrary(bytes memory initcode) internal returns (address " ++
    "contractAddress) \x7b",
  "        contractAddress = computeAddress(initcode, bytes32(0));",
  "        if (contractAddress.code.length > 0) return contractAddress;",
  "        contractAddress = deploy(initcode, bytes32(0), 0);",
  "    \x7d",
  "\x7d"]

def source : String := String.join (lines.map (· ++ "\n"))

end SolDeployer.Solidity.DeployHelper
